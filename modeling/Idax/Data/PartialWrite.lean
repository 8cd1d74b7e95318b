import Idax.Data.RoundTrip

/-!
This module shows what `write_typed` leaves behind when it fails. A value is the list of its leaves,
each of which is stored on its own, and the writer stops at the first leaf that cannot be stored.
-/

namespace Idax
namespace Data

structure Leaf where
  address : Nat
  content : Result (List UInt8)

namespace Leaf

def stored (store : Nat × List UInt8) : Leaf :=
  { address := store.fst, content := .ok store.snd }

def bad (address : Nat) (e : Error) : Leaf :=
  { address, content := .error e }

end Leaf

def Database.putAll (db : Database) : List (Nat × List UInt8) → Database
  | [] => db
  | (address, bs) :: stores => (db.put address bs).putAll stores

def writeLeaves : List Leaf → Database → Status × Database
  | [], db => (ok, db)
  | { address, content } :: leaves, db =>
    match content with
    | .ok bs => writeLeaves leaves (db.put address bs)
    | .error e => (.error e, db)

theorem writeLeaves_append (ls ls' : List Leaf) (db : Database)
    : writeLeaves (ls ++ ls') db
        = match writeLeaves ls db with
          | (.ok _, db) => writeLeaves ls' db
          | (.error e, db) => (.error e, db) := by
  induction ls generalizing db with
  | nil => rfl
  | cons leaf ls ih =>
    rcases leaf with ⟨address, content⟩
    cases content with
    | ok bs => apply ih
    | error e => rfl

theorem bigEndian_writeLeaves (ls : List Leaf) (db : Database)
    : (writeLeaves ls db).snd.bigEndian = db.bigEndian := by
  induction ls generalizing db with
  | nil => rfl
  | cons leaf ls ih =>
    rcases leaf with ⟨address, content⟩
    cases content with
    | ok bs => apply ih (db.put address bs)
    | error e => rfl

theorem writeLeaves_error {ls : List Leaf} {db db' : Database} {e : Error}
    (h : writeLeaves ls db = (.error e, db'))
    : ∃ stores address rest,
        ls = stores.map Leaf.stored ++ Leaf.bad address e :: rest ∧ db' = db.putAll stores := by
  induction ls generalizing db with
  | nil => cases h
  | cons leaf ls ih =>
    rcases leaf with ⟨address, content⟩
    cases content with
    | ok bs =>
      rcases ih h with ⟨stores, address', rest, hls, hdb⟩
      refine ⟨(address, bs) :: stores, address', rest, ?_, hdb⟩
      rw [hls]
      rfl
    | error e' =>
      cases h
      exact ⟨[], address, ls, rfl, rfl⟩

def blankDatabase (bigEndian : Bool) : Database :=
  { byte := fun _ => 0, loaded := fun _ => true, bigEndian }

variable (casts : FloatCasts)

def scalarContent (bigEndian : Bool) (address : Nat) (ti : TypeInfo) (size : Nat) (v : TypedValue)
    : Result (List UInt8) :=
  match writeScalar casts address ti size v (blankDatabase bigEndian) with
  | (.ok _, db) => .ok (db.byte.get address size)
  | (.error e, _) => .error e

def arrayShape (element : TypeInfo) (length : Nat) (v : TypedValue) : Result Nat :=
  if v.kind ≠ .array then
    .error (.validation "Typed array write requires array/bytes/string value")
  else if v.elements.length ≠ length then
    .error (.validation "Array element count mismatch"
      (toString v.elements.length ++ " != " ++ toString length))
  else
    checkedTypeSize element

def elementLeaves (leaves : Nat → TypedValue → List Leaf) (address size : Nat)
    : (i : Nat) → List TypedValue → List Leaf
  | _, [] => []
  | i, v :: vs =>
    (match elementAddress "Typed array write address overflow" address size i with
      | .error e => [.bad address e]
      | .ok a => leaves a v) ++ elementLeaves leaves address size (i + 1) vs

def leaves (bigEndian : Bool) : (levels : Nat) → (address : Nat) → TypeInfo → TypedValue → List Leaf
  | 0, address, _, _ =>
    [.bad address (.validation "Maximum typed-value recursion depth exceeded")]
  | levels + 1, address, ti, v =>
    match resolveIfTypedef ti with
    | .error e => [.bad address e]
    | .ok (.array element length) =>
      match (TypeInfo.array element length).arrayLength with
      | .error e => [.bad address e]
      | .ok length =>
        if isByteInteger element && (v.kind = .bytes || v.kind = .string) then
          [{ address, content := byteArrayContent v length }]
        else
          match arrayShape element length v with
          | .error e => [.bad address e]
          | .ok size =>
            elementLeaves (fun a v => leaves bigEndian levels a element v) address size 0 v.elements
    | .ok ti =>
      match checkedTypeSize ti with
      | .error e => [.bad address e]
      | .ok size => [{ address, content := scalarContent casts bigEndian address ti size v }]

def TypedValue.leaves (v : TypedValue) (bigEndian : Bool) (address : Nat) (ti : TypeInfo)
    : List Leaf :=
  Data.leaves casts bigEndian (kMaxTypedDepth + 1) address ti v

section Checked

def Checked (write : Database → Status × Database) : Prop :=
  (∃ e, ∀ db, write db = (.error e, db)) ∨ ∀ db, (write db).fst = ok

theorem checked_writeUnsignedFixed (address width : Nat) (value : UInt64)
    : Checked (writeUnsignedFixed · address width value) := by
  cases hfits : fitsUnsignedWidth width value with
  | true =>
    right
    intro db
    dsimp only
    rw [writeUnsignedFixed_of_fits hfits]
  | false => exact .inl ⟨_, fun db => writeUnsignedFixed_of_not_fits hfits db address⟩

theorem checked_writeSignedFixed (address width : Nat) (value : Int64)
    : Checked (writeSignedFixed · address width value) := by
  cases hfits : fitsSignedWidth width value with
  | true =>
    right
    intro db
    dsimp only
    rw [writeSignedFixed_of_fits hfits]
  | false => exact .inl ⟨_, fun db => writeSignedFixed_of_not_fits hfits db address⟩

variable {casts}

theorem checked_writeScalar (address size : Nat) (ti : TypeInfo) (v : TypedValue)
    : Checked (writeScalar casts address ti size v) := by
  unfold writeScalar
  split
  . cases v.kind with
    | pointer => apply checked_writeUnsignedFixed
    | unsignedInteger => apply checked_writeUnsignedFixed
    | _ => exact .inl ⟨_, fun _ => rfl⟩
  . split
    . by_cases hkind : v.kind ≠ .floatingPoint
      . exact .inl ⟨_, fun _ => if_pos hkind⟩
      . simp only [hkind, ↓reduceIte]
        by_cases hfour : size = 4
        . simp only [hfour, ↓reduceIte]
          exact .inr fun _ => rfl
        . by_cases height : size = 8
          . simp only [height, ↓reduceIte]
            exact .inr fun _ => rfl
          . simp only [hfour, height, ↓reduceIte]
            exact .inl ⟨_, fun _ => rfl⟩
    . split
      . split
        . cases v.kind with
          | signedInteger => apply checked_writeSignedFixed
          | unsignedInteger =>
            dsimp only
            by_cases hlarge : 2 ^ 63 - 1 < v.unsignedValue.toNat
            . exact .inl ⟨_, fun _ => if_pos hlarge⟩
            . simp only [if_neg hlarge]
              apply checked_writeSignedFixed
          | _ => exact .inl ⟨_, fun _ => rfl⟩
        . cases v.kind with
          | unsignedInteger => apply checked_writeUnsignedFixed
          | signedInteger =>
            dsimp only
            by_cases hnegative : v.signedValue < 0
            . exact .inl ⟨_, fun _ => if_pos hnegative⟩
            . simp only [if_neg hnegative]
              apply checked_writeUnsignedFixed
          | _ => exact .inl ⟨_, fun _ => rfl⟩
      . by_cases hkind : v.kind ≠ .bytes
        . exact .inl ⟨_, fun _ => if_pos hkind⟩
        . by_cases hlength : v.bytes.length ≠ size
          . simp only [hkind, if_pos hlength, ↓reduceIte]
            exact .inl ⟨_, fun _ => rfl⟩
          . simp only [hkind, if_neg hlength, Database.writeBytes_eq, ↓reduceIte]
            exact .inr fun _ => rfl

theorem writeScalar_eq {address size : Nat} {ti : TypeInfo} (hti : ti.IsScalar)
    (hsize : ti.getSize = some size) (v : TypedValue) (db : Database)
    : writeScalar casts address ti size v db
        = writeLeaves [{ address, content := scalarContent casts db.bigEndian address ti size v }] db := by
  rcases @checked_writeScalar casts address size ti v with ⟨e, herror⟩ | hok
  . rw [scalarContent, herror, herror]
    rfl
  . rcases roundTrips_scalar hti hsize (hok (blankDatabase db.bigEndian)) with ⟨bs, hlength, hstores, _⟩
    subst hlength
    have hcontent : scalarContent casts db.bigEndian address ti bs.length v = .ok bs := by
      rw [scalarContent, hstores _ rfl]
      apply congrArg Except.ok
      apply ByteMap.get_put
    rw [hcontent, hstores db rfl]
    rfl

end Checked

variable {casts}

theorem writeElements_eq {write : Nat → TypedValue → Database → Status × Database}
    {leaves : Nat → TypedValue → List Leaf} {bigEndian : Bool}
    (hwrite : ∀ a v db, db.bigEndian = bigEndian → write a v db = writeLeaves (leaves a v) db)
    (address size i : Nat) (vs : List TypedValue) {db : Database} (hdb : db.bigEndian = bigEndian)
    : writeElements write address size i vs db
        = writeLeaves (elementLeaves leaves address size i vs) db := by
  induction vs generalizing i db with
  | nil => rfl
  | cons v vs ih =>
    rw [writeElements, elementLeaves, writeLeaves_append]
    cases elementAddress "Typed array write address overflow" address size i with
    | error e => rfl
    | ok a =>
      have hkept := bigEndian_writeLeaves (leaves a v) db
      simp only [hwrite a v db hdb]
      revert hkept
      rcases writeLeaves (leaves a v) db with ⟨status, db'⟩
      intro hkept
      cases status with
      | error e => rfl
      | ok u => apply ih (i + 1) (hkept.trans hdb)

theorem leaves_realtype (bigEndian : Bool) (levels address : Nat) (ti : TypeInfo) (v : TypedValue)
    : leaves casts bigEndian levels address ti.realtype v
        = leaves casts bigEndian levels address ti v := by
  cases levels with
  | zero => rfl
  | succ levels => rw [leaves, leaves, resolveIfTypedef_realtype]

theorem leaves_scalar {ti : TypeInfo} (h : ti.IsScalar) (bigEndian : Bool) (levels address : Nat)
    (v : TypedValue)
    : leaves casts bigEndian (levels + 1) address ti v
        = match checkedTypeSize ti with
          | .error e => [.bad address e]
          | .ok size => [{ address, content := scalarContent casts bigEndian address ti size v }] := by
  cases ti with
  | array element length => cases h
  | typedef target => cases h
  | unresolved name => cases h
  | _ => rfl

theorem writeTypedImpl_scalar_eq {ti : TypeInfo} (hti : ti.IsScalar) (levels address : Nat)
    (v : TypedValue) (db : Database)
    : writeTypedImpl casts (levels + 1) address ti v db
        = writeLeaves (leaves casts db.bigEndian (levels + 1) address ti v) db := by
  rw [writeTypedImpl_scalar hti, leaves_scalar hti]
  cases hsize : checkedTypeSize ti with
  | error e => rfl
  | ok size => apply writeScalar_eq hti (checkedTypeSize_eq_ok_iff.mp hsize).left

theorem writeTypedImpl_array_eq {element : TypeInfo} {levels : Nat}
    (hone : ∀ a v db, writeTypedImpl casts levels a element v db
      = writeLeaves (leaves casts db.bigEndian levels a element v) db)
    (length : UInt32) (address : Nat) (v : TypedValue) (db : Database)
    : writeTypedImpl casts (levels + 1) address (.array element length) v db
        = writeLeaves (leaves casts db.bigEndian (levels + 1) address (.array element length) v) db := by
  by_cases hcounted : TypeInfo.Counted length
  case neg =>
    rw [writeTypedImpl_uncounted hcounted, leaves]
    simp only [resolveIfTypedef_array, TypeInfo.arrayLength_of_not_counted hcounted]
    rfl
  by_cases hcase : isByteInteger element = true ∧ (v.kind = .bytes ∨ v.kind = .string)
  . have hcond : (isByteInteger element && (v.kind = .bytes || v.kind = .string)) = true := by
      simpa using hcase
    rw [writeTypedImpl_bytes hcounted hcase.left hcase.right, leaves]
    simp only [resolveIfTypedef_array, TypeInfo.arrayLength_of_counted hcounted, hcond, ↓reduceIte]
    cases byteArrayContent v length.toNat <;> rfl
  . have hcond : (isByteInteger element && (v.kind = .bytes || v.kind = .string)) = false := by
      rw [Bool.eq_false_iff]
      simpa using hcase
    rw [writeTypedImpl_array hcounted hcase, leaves]
    simp only [resolveIfTypedef_array, TypeInfo.arrayLength_of_counted hcounted, hcond, Bool.false_eq_true,
      ↓reduceIte, arrayShape]
    split
    . rfl
    . split
      . rfl
      . cases checkedTypeSize element with
        | error e => rfl
        | ok size =>
          apply writeElements_eq
          . intro a v db hdb
            rw [hone, hdb]
          . rfl

theorem writeTypedImpl_eq (levels address : Nat) (ti : TypeInfo) (v : TypedValue) (db : Database)
    : writeTypedImpl casts levels address ti v db
        = writeLeaves (leaves casts db.bigEndian levels address ti v) db := by
  induction levels generalizing address ti v db with
  | zero => rfl
  | succ levels ih =>
    rw [← writeTypedImpl_realtype, ← leaves_realtype]
    have htypedef := ti.realtype_ne_typedef
    generalize ti.realtype = t at htypedef
    cases t with
    | typedef target => exact absurd rfl (htypedef target)
    | unresolved name => rfl
    | array element length =>
      apply writeTypedImpl_array_eq
      intro a v db
      apply ih
    | _ =>
      apply writeTypedImpl_scalar_eq
      trivial

theorem leaves_of_not_elements {ti : TypeInfo} {v : TypedValue}
    (h : v.kind ≠ .array ∨ ti.isArray = false) (bigEndian : Bool) (levels address : Nat)
    : ∃ leaf, leaves casts bigEndian levels address ti v = [leaf] := by
  cases levels with
  | zero => exact ⟨_, rfl⟩
  | succ levels =>
    rw [leaves]
    split
    . exact ⟨_, rfl⟩
    . next element length harray =>
      split
      . exact ⟨_, rfl⟩
      . split
        . exact ⟨_, rfl⟩
        have hkind : v.kind ≠ .array := by
          apply h.resolve_right
          rw [resolveIfTypedef_eq] at harray
          rw [TypeInfo.isArray, TypeInfo.realtype_of_resolveTypedef harray]
          simp
        rw [arrayShape, if_pos hkind]
        exact ⟨_, rfl⟩
    . split <;> exact ⟨_, rfl⟩

/--
A write that fails has stored the leaves before the first bad one, and nothing else.
-/
theorem writeTyped_error {db db' : Database} {address : Nat} {ti : TypeInfo} {v : TypedValue}
    {e : Error} (h : writeTyped casts db address ti v = (.error e, db'))
    : (∃ stores badAddress rest,
        v.leaves casts db.bigEndian address ti
            = stores.map Leaf.stored ++ Leaf.bad badAddress e :: rest
          ∧ db' = db.putAll stores)
        ∧ (v.kind ≠ .array ∨ ti.isArray = false → db' = db) := by
  rw [writeTyped, writeTypedImpl_eq] at h
  rcases writeLeaves_error h with ⟨stores, badAddress, rest, hleaves, hdb⟩
  refine ⟨⟨stores, badAddress, rest, hleaves, hdb⟩, ?_⟩
  intro hone
  have hleaves' : ∃ leaf, v.leaves casts db.bigEndian address ti = [leaf] := by
    apply leaves_of_not_elements hone
  rcases hleaves' with ⟨leaf, hleaf⟩
  cases stores with
  | nil => exact hdb
  | cons store stores =>
    have hlength := congrArg List.length (hleaf.symm.trans hleaves)
    simp only [List.length_append, List.length_map, List.length_cons, List.length_nil] at hlength
    omega

section Example

def shortPair : TypeInfo :=
  .array (.integer 2 false) 2

def overflowingPair : TypedValue :=
  { kind := .array
    elements :=
      [ { kind := .unsignedInteger, unsignedValue := 1 }
      , { kind := .unsignedInteger, unsignedValue := 0x10000 } ] }

def overflowError : Error :=
  .validation "Unsigned value does not fit target width" "65536 for width=2"

theorem writeTyped_error_overflowingPair
    : (∃ stores badAddress rest,
        overflowingPair.leaves keepCasts false 0x1000 shortPair
            = stores.map Leaf.stored ++ Leaf.bad badAddress overflowError :: rest
          ∧ (writeTyped keepCasts zeroedDatabase 0x1000 shortPair overflowingPair).snd
              = zeroedDatabase.putAll stores)
        ∧ (overflowingPair.kind ≠ .array ∨ shortPair.isArray = false
          → (writeTyped keepCasts zeroedDatabase 0x1000 shortPair overflowingPair).snd
              = zeroedDatabase) := by
  apply @writeTyped_error keepCasts zeroedDatabase
  rfl

theorem not_allOrNothing_overflowingPair
    : ¬∀ (casts : FloatCasts) (db db' : Database) (address : Nat) (ti : TypeInfo) (v : TypedValue)
        (e : Error), writeTyped casts db address ti v = (.error e, db') → db'.byte = db.byte := by
  intro h
  have hbyte := h keepCasts zeroedDatabase _ 0x1000 shortPair overflowingPair overflowError rfl
  have hone := congrFun hbyte 0x1000
  revert hone
  decide

end Example

end Data
end Idax
