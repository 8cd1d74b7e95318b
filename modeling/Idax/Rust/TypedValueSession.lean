import Idax.Data.Lossless
import Idax.Rust.TypedValue

/-!
This module contains the way of a typed value from the database into Rust and back: nothing that matters
for writing is lost on it, although Rust keeps only one payload of each value.
-/

namespace Idax
namespace Rust

open Ownership
open Shim

section Payload

mutual

def ofValue : Data.TypedValue → TypedValue
  | ⟨kind, unsignedValue, signedValue, floatingValue, pointerValue, string, bytes, elements⟩ =>
    match kind with
    | .unsignedInteger => .unsignedInteger unsignedValue
    | .signedInteger => .signedInteger signedValue
    | .floatingPoint => .floatingPoint floatingValue
    | .pointer => .pointer pointerValue
    | .string => .string (fromUtf8Lossy (CString.read string))
    | .bytes => .bytes bytes
    | .array => .array (ofValues elements)

def ofValues : List Data.TypedValue → List TypedValue
  | [] => []
  | value :: values => ofValue value :: ofValues values

end

mutual

def payload : Data.TypedValue → Data.TypedValue
  | ⟨kind, unsignedValue, signedValue, floatingValue, pointerValue, stringValue, bytes, elements⟩ =>
    match kind with
    | .unsignedInteger => { kind, pointerValue := 0, unsignedValue }
    | .signedInteger => { kind, pointerValue := 0, signedValue }
    | .floatingPoint => { kind, pointerValue := 0, floatingValue }
    | .pointer => { kind, pointerValue }
    | .string => { kind, pointerValue := 0, stringValue }
    | .bytes => { kind, pointerValue := 0, bytes }
    | .array => { kind, pointerValue := 0, elements := payloads elements }

def payloads : List Data.TypedValue → List Data.TypedValue
  | [] => []
  | value :: values => payload value :: payloads values

end

mutual

def Plain : Data.TypedValue → Prop
  | ⟨_, _, _, _, _, string, _, elements⟩ =>
    (∀ byte ∈ string, Data.isPrintableAscii byte = true) ∧ PlainAll elements

def PlainAll : List Data.TypedValue → Prop
  | [] => True
  | value :: values => Plain value ∧ PlainAll values

end

theorem length_payloads (values : List Data.TypedValue) : (payloads values).length = values.length := by
  induction values with
  | nil => rfl
  | cons value values ih => rw [payloads, List.length_cons, ih, List.length_cons]

theorem lossy_of_printable {text : List UInt8} (h : ∀ byte ∈ text, Data.isPrintableAscii byte = true)
    : 0 ∉ text ∧ fromUtf8Lossy (CString.read text) = text := by
  have hzero : 0 ∉ text := by
    intro hmem
    exact absurd (h 0 hmem) (by decide)
  refine ⟨hzero, ?_⟩
  rw [CString.read_eq_self_iff.mpr hzero]
  apply fromUtf8Lossy_of_ascii
  intro byte hbyte
  have hprintable := h byte hbyte
  rw [Data.isPrintableAscii, Bool.and_eq_true, decide_eq_true_iff, decide_eq_true_iff] at hprintable
  rw [UInt8.lt_iff_toNat_lt]
  have hle := UInt8.le_iff_toNat_le.mp hprintable.right
  exact Nat.lt_of_le_of_lt hle (by decide)

end Payload

section Conversions

theorem bytesOf_of_copied {bytes : List UInt8} {p : Ptr (List UInt8)} (h : CopiedTo bytes bytes p)
    : bytesOf p bytes.length = pure bytes := by
  unfold bytesOf
  split
  . next hnone =>
    rcases h with ⟨address, rfl⟩ | ⟨rfl, rfl⟩
    . rcases hnone with hnone | hlength
      . cases hnone
      . rw [List.eq_nil_of_length_eq_zero hlength]
    . rfl
  . exact readBytes_of_copied h

mutual

theorem raw_of_copies : (value : Data.TypedValue) → (out : IdaxDataTypedValue) → Copies value out →
    rawTypedValueToRust out = pure (ofValue value)
  | ⟨kind, unsignedValue, signedValue, floatingValue, pointerValue, string, bytes, elements⟩,
    .mk fields pointer array, h => by
    have ⟨hkind, hunsigned, hsigned, hfloating, hpointer, hstring, hbytes, hbyteCount, hcount, hnone,
      hall⟩ := h
    unfold rawTypedValueToRust
    rw [hkind, hunsigned, hsigned, hfloating, hpointer, hbyteCount, hcount, stringOf_of_copied hstring,
      bytesOf_of_copied hbytes]
    cases kind with
    | unsignedInteger => rfl
    | signedInteger => rfl
    | floatingPoint => rfl
    | pointer => rfl
    | string => rfl
    | bytes => rfl
    | array =>
      have hguard : ¬(0 < elements.length ∧ pointer.isNone) := by
        rintro ⟨hlength, hisNone⟩
        rw [hnone (Option.isNone_iff_eq_none.mp hisNone)] at hlength
        exact Nat.lt_irrefl 0 hlength
      rw [raw_of_copiesAll elements array hall, if_neg hguard]
      rfl

theorem raw_of_copiesAll : (values : List Data.TypedValue) → (array : List IdaxDataTypedValue) →
    CopiesAll values array → rawTypedValuesToRust array values.length = pure (ofValues values)
  | [], _, _ => by
    unfold rawTypedValuesToRust
    rfl
  | value :: values, out :: array, h => by
    unfold rawTypedValuesToRust
    dsimp only [List.length_cons]
    rw [raw_of_copies value out h.left, raw_of_copiesAll values array h.right]
    rfl

end

mutual

theorem built_ofValue : (value : Data.TypedValue) → Plain value →
    ∃ raw, buildOwnedTypedValue (ofValue value) = .ok raw ∧ parseTypedValue raw = pure (payload value)
  | ⟨kind, unsignedValue, signedValue, floatingValue, pointerValue, string, bytes, elements⟩, h => by
    cases kind with
    | unsignedInteger => exact ⟨_, rfl, rfl⟩
    | signedInteger => exact ⟨_, rfl, rfl⟩
    | floatingPoint => exact ⟨_, rfl, rfl⟩
    | pointer => exact ⟨_, rfl, rfl⟩
    | string =>
      have ⟨hzero, htext⟩ := lossy_of_printable h.left
      unfold ofValue buildOwnedTypedValue
      rw [htext, if_neg hzero]
      refine ⟨_, rfl, ?_⟩
      unfold parseTypedValue
      dsimp only [borrowed]
      rw [readString_of_copied (.inl ⟨0, rfl⟩), CString.read_eq_self_iff.mpr hzero]
      rfl
    | bytes =>
      unfold ofValue buildOwnedTypedValue
      cases bytes with
      | nil => exact ⟨_, rfl, rfl⟩
      | cons byte bytes =>
        refine ⟨_, rfl, ?_⟩
        unfold parseTypedValue
        dsimp only [borrowed]
        rw [readBytes_of_copied (.inl ⟨0, rfl⟩)]
        rfl
    | array =>
      rcases built_ofValues elements h.right with ⟨raws, hraws, hlength, hparse⟩
      unfold ofValue buildOwnedTypedValue
      rw [hraws, ok_bind]
      cases raws with
      | nil =>
        rw [List.eq_nil_of_length_eq_zero hlength.symm]
        exact ⟨_, rfl, rfl⟩
      | cons raw raws =>
        refine ⟨_, rfl, ?_⟩
        unfold parseTypedValue
        dsimp only
        rw [hlength, hparse]
        have hguard : (0 < elements.length ∧ (some 0).isNone = true) = False := by simp
        simp only [hguard, if_false]
        rfl

theorem built_ofValues : (values : List Data.TypedValue) → PlainAll values →
    ∃ raws, buildOwnedTypedValues (ofValues values) = .ok raws ∧ raws.length = values.length
      ∧ parseElements raws values.length = pure (payloads values)
  | [], _ => ⟨[], rfl, rfl, by unfold parseElements; rfl⟩
  | value :: values, h => by
    rcases built_ofValue value h.left with ⟨raw, hraw, hparse⟩
    rcases built_ofValues values h.right with ⟨raws, hraws, hlength, hparses⟩
    refine ⟨raw :: raws, ?_, congrArg Nat.succ hlength, ?_⟩
    . rw [ofValues, buildOwnedTypedValues, hraw, hraws]
      rfl
    . unfold parseElements
      dsimp only [List.length_cons]
      rw [hparse, hparses]
      rfl

end

end Conversions

section Database

open Data

variable {casts : FloatCasts}

theorem writeElements_payloads {write : Nat → Data.TypedValue → Database → Status × Database}
    (hwrite : ∀ a v db, write a (payload v) db = write a v db) (address size i : Nat)
    (values : List Data.TypedValue) (db : Database)
    : writeElements write address size i (payloads values) db
        = writeElements write address size i values db := by
  induction values generalizing i db with
  | nil => rfl
  | cons value values ih =>
    rw [payloads, writeElements, writeElements]
    simp only [hwrite, ih]

theorem writeScalar_payload (address : Nat) (ti : Data.TypeInfo) (size : Nat) (value : Data.TypedValue)
    (db : Database)
    : writeScalar casts address ti size (payload value) db
        = writeScalar casts address ti size value db := by
  cases value with
  | mk kind unsignedValue signedValue floatingValue pointerValue string bytes elements =>
    unfold writeScalar payload
    cases kind <;> rfl

theorem byteArrayContent_payload {value : Data.TypedValue} (length : Nat)
    (hkind : (value.kind = .bytes || value.kind = .string) = true)
    : byteArrayContent (payload value) length = byteArrayContent value length := by
  cases value with
  | mk kind unsignedValue signedValue floatingValue pointerValue string bytes elements =>
    unfold byteArrayContent payload
    cases kind with
    | bytes => rfl
    | string => rfl
    | _ => cases hkind

theorem kind_payload (value : Data.TypedValue) : (payload value).kind = value.kind := by
  cases value with
  | mk kind => cases kind <;> rfl

theorem elements_payload {value : Data.TypedValue} (hkind : value.kind = .array)
    : (payload value).elements = payloads value.elements := by
  cases value with
  | mk kind =>
    cases hkind
    rfl

theorem writeTypedImpl_payload (levels address : Nat) (ti : Data.TypeInfo) (value : Data.TypedValue)
    (db : Database)
    : writeTypedImpl casts levels address ti (payload value) db
        = writeTypedImpl casts levels address ti value db := by
  induction levels generalizing address ti value db with
  | zero => rfl
  | succ levels ih =>
    unfold writeTypedImpl
    simp only [kind_payload, writeScalar_payload]
    cases resolveIfTypedef ti with
    | error e => rfl
    | ok effectiveType =>
      dsimp only
      split
      . split
        . rfl
        . rfl
        . next elementType length _ _ =>
          split
          . next hbyte =>
            rw [byteArrayContent_payload length (Bool.and_eq_true_iff.mp hbyte).right]
          . split
            . rfl
            . next harray =>
              have hkind : value.kind = .array := not_not.mp harray
              rw [elements_payload hkind, length_payloads]
              simp only [writeElements_payloads (fun a v db => ih a elementType v db)]
      . rfl

theorem plainAll_of_readElements {read : Nat → Result Data.TypedValue}
    (hread : ∀ a value, read a = .ok value → Plain value) {address size count i : Nat}
    {values : List Data.TypedValue} (h : readElements read address size count i = .ok values)
    : PlainAll values := by
  induction count generalizing i values with
  | zero =>
    cases h
    trivial
  | succ count ih =>
    rw [readElements] at h
    rcases bind_eq_ok_iff.mp h with ⟨x, _, h⟩
    rcases bind_eq_ok_iff.mp h with ⟨value, hvalue, h⟩
    rcases bind_eq_ok_iff.mp h with ⟨rest, hrest, h⟩
    cases h
    exact ⟨hread x value hvalue, ih hrest⟩

theorem plain_of_readScalar {db : Database} {address size : Nat} {ti : Data.TypeInfo}
    {value : Data.TypedValue} (h : readScalar casts db address ti size = .ok value) : Plain value := by
  have hplain (u : UInt64) (s : Int64) (kind : TypedValueKind) (f p : UInt64) (bytes : List UInt8)
      : Plain ⟨kind, u, s, f, p, [], bytes, []⟩ := by
    refine ⟨?_, trivial⟩
    intro byte hmem
    cases hmem
  -- In every branch something is read, and there is no text in what is made of it.
  have hread {α : Type} {r : Result α} {f : α → Data.TypedValue} (hf : ∀ a, Plain (f a))
      (h : (r >>= fun a => .ok (f a)) = .ok value) : Plain value := by
    rcases bind_eq_ok_iff.mp h with ⟨a, _, h⟩
    cases h
    apply hf
  unfold readScalar at h
  split at h
  . exact hread (fun _ => hplain _ _ _ _ _ _) h
  . split at h
    . split at h
      . exact hread (fun _ => hplain _ _ _ _ _ _) h
      . split at h
        . exact hread (fun _ => hplain _ _ _ _ _ _) h
        . exact hread (fun _ => hplain _ _ _ _ _ _) h
    . split at h
      . split at h
        . exact hread (fun _ => hplain _ _ _ _ _ _) h
        . split at h
          . exact hread (fun _ => hplain _ _ _ _ _ _) h
          . exact hread (fun _ => hplain _ _ _ _ _ _) h
      . exact hread (fun _ => hplain _ _ _ _ _ _) h

theorem plain_byteArrayValue (raw : List UInt8) : Plain (byteArrayValue raw) := by
  unfold byteArrayValue
  dsimp only
  split
  . next htext =>
    refine ⟨?_, trivial⟩
    exact List.all_eq_true.mp (Bool.and_eq_true_iff.mp htext).right
  . refine ⟨?_, trivial⟩
    intro byte hmem
    cases hmem

theorem plain_of_readTypedImpl {db : Database} {levels address : Nat} {ti : Data.TypeInfo}
    {value : Data.TypedValue} (h : readTypedImpl casts db levels address ti = .ok value)
    : Plain value := by
  induction levels generalizing address ti value with
  | zero => cases h
  | succ levels ih =>
    unfold readTypedImpl at h
    rcases bind_eq_ok_iff.mp h with ⟨effectiveType, _, h⟩
    split at h
    . rcases bind_eq_ok_iff.mp h with ⟨elementType, _, h⟩
      rcases bind_eq_ok_iff.mp h with ⟨length, _, h⟩
      split at h
      . rcases bind_eq_ok_iff.mp h with ⟨raw, _, h⟩
        cases h
        apply plain_byteArrayValue
      . rcases bind_eq_ok_iff.mp h with ⟨size, _, h⟩
        rcases bind_eq_ok_iff.mp h with ⟨elements, helements, h⟩
        cases h
        refine ⟨?_, plainAll_of_readElements (fun a value hvalue => ih hvalue) helements⟩
        intro byte hmem
        cases hmem
    . rcases bind_eq_ok_iff.mp h with ⟨size, _, h⟩
      apply plain_of_readScalar h

end Database

section Calls

variable {casts : Data.FloatCasts} {db : Data.Database} {address : Nat} {ty : Data.TypeInfo}

theorem writeTyped_ofValue {value : Data.TypedValue}
    (h : Data.readTyped casts db address ty = .ok value) (target : Nat) (db' : Data.Database)
    : writeTyped casts db' target ty (ofValue value)
        = some ((Data.writeTyped casts db' target ty value).1.mapError crossedError,
            (Data.writeTyped casts db' target ty value).2) := by
  rcases built_ofValue value (plain_of_readTypedImpl h) with ⟨raw, hraw, hparse⟩
  unfold writeTyped
  rw [hraw]
  dsimp only
  rw [hparse]
  show some _ = _
  rw [show Data.writeTyped casts db' target ty (payload value) = Data.writeTyped casts db' target ty value
    from writeTypedImpl_payload _ _ _ _ _]
  rw [mapError_crossedError, ← intToStatus_returnStatus {} _ "write_typed failed"]

theorem triple_readTyped (refused : Nat → Bool)
    : Triple 0 (readTyped casts db address ty refused) (fun result blocks => blocks = 0
        ∧ (result = ((Data.readTyped casts db address ty).mapError crossedError).map ofValue
          ∨ result = .error (crossedError mallocFailed) ∧ ∃ k, refused k = true)) := by
  unfold readTyped
  cases Data.readTyped casts db address ty with
  | error err =>
    apply Triple.pure
    exact ⟨rfl, .inl (congrArg Except.error (consumeLastError_setError (.of err) _))⟩
  | ok value =>
    apply (triple_fillTypedValue value).bind
    rintro ⟨status, raw⟩ _ ⟨rfl, hshaped, ⟨rfl, hcopies⟩ | ⟨rfl, howned, hrefused⟩⟩
    . dsimp only [ok]
      rw [raw_of_copies value raw hcopies]
      apply (triple_freeTypedValueContents raw hshaped).bind
      rintro _ _ ⟨rfl, _⟩
      apply Triple.pure
      exact ⟨rfl, .inl rfl⟩
    . dsimp only
      rw [howned]
      apply Triple.pure
      exact ⟨rfl, .inr ⟨congrArg Except.error (consumeLastError_setError _ _), hrefused⟩⟩

/--
Reading a value in Rust keeps no memory, whichever requests are refused. It returns what C++ reads, unless
memory was refused, and writing that in Rust, anywhere, does what writing the value does in C++; so it
changes nothing under the same condition.
-/
theorem rust_session (casts : Data.FloatCasts) (db : Data.Database) (address : Nat)
    (ty : Data.TypeInfo) (refused : Nat → Bool) (heap : Heap)
    : ∃ result after, readTyped casts db address ty refused heap = some (result, after)
        ∧ after.live = heap.live
        ∧ (result = ((Data.readTyped casts db address ty).mapError crossedError).map ofValue
          ∨ result = .error (crossedError mallocFailed) ∧ ∃ k, refused k = true)
        ∧ ∀ v, result = .ok v → ∃ value, Data.readTyped casts db address ty = .ok value
          ∧ (∀ target db', writeTyped casts db' target ty v
              = some ((Data.writeTyped casts db' target ty value).1.mapError crossedError,
                  (Data.writeTyped casts db' target ty value).2))
          ∧ (db.FullyLoaded → (writeTyped casts db address ty v = some (.ok (), db)
              ↔ Data.Lossless casts db ty address)) := by
  rcases (triple_readTyped refused).run heap with ⟨result, after, hrun, _, hlive, rfl, hresult⟩
  rw [Multiset.add_zero] at hlive
  refine ⟨result, after, hrun, hlive, hresult, ?_⟩
  rintro v rfl
  rcases hresult with hread | ⟨herror, _⟩
  . cases hvalue : Data.readTyped casts db address ty with
    | error err =>
      rw [hvalue] at hread
      cases hread
    | ok value =>
      rw [hvalue] at hread
      cases hread
      refine ⟨value, rfl, writeTyped_ofValue hvalue, ?_⟩
      intro hloaded
      rw [writeTyped_ofValue hvalue,
        ← Data.writeTypedImpl_eq_self_iff hloaded _ address ty value hvalue]
      show some (_, _) = _ ↔ Data.writeTyped casts db address ty value = _
      rcases Data.writeTyped casts db address ty value with ⟨status, db'⟩
      cases status with
      | ok _ => simp [Except.mapError, ok]
      | error err => simp [Except.mapError, ok]
  . cases herror

end Calls

end Rust
end Idax
