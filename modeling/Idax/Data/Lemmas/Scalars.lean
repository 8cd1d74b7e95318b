import Idax.Data.Lemmas.Typed

/-!
Which scalars can be read and written, and that neither gives the error of an address overflow.
-/

namespace Idax
namespace Data

def readOverflow : Error :=
  .validation "Typed array read address overflow"

def writeOverflow : Error :=
  .validation "Typed array write address overflow"

def TypeInfo.Readable (ti : TypeInfo) (size : Nat) : Prop :=
  if ti.isPointer then
    ValidWidth size
  else if ti.isFloatingPoint then
    True
  else if ti.isInteger || ti.isEnum then
    8 < size ∨ ValidWidth size
  else
    True

def TypeInfo.Storable (ti : TypeInfo) (size : Nat) : Prop :=
  if ti.isPointer then
    ValidWidth size
  else if ti.isFloatingPoint then
    size = 4 ∨ size = 8
  else if ti.isInteger || ti.isEnum then
    ValidWidth size
  else
    True

theorem checkedTypeSize_error {ti : TypeInfo} {e : Error} (h : checkedTypeSize ti = .error e)
    : e ≠ readOverflow ∧ e ≠ writeOverflow := by
  unfold checkedTypeSize TypeInfo.size at h
  cases hsize : ti.getSize with
  | none =>
    rw [hsize] at h
    cases h
    simp [Error.sdk, readOverflow, writeOverflow, Error.validation]
  | some size =>
    rw [hsize, ok_bind] at h
    split at h
    . cases h
      simp [readOverflow, writeOverflow, Error.validation]
    . cases h

theorem TypeInfo.Storable.readable {ti : TypeInfo} {size : Nat} (h : ti.Storable size)
    : ti.Readable size := by
  unfold Storable at h
  unfold Readable
  split
  . next hpointer =>
    rw [if_pos hpointer] at h
    exact h
  . next hpointer =>
    rw [if_neg hpointer] at h
    split
    . trivial
    . next hfloat =>
      rw [if_neg hfloat] at h
      split
      . next hinteger =>
        rw [if_pos hinteger] at h
        exact .inr h
      . trivial

section Read

variable {db : Database}

theorem readWidth_ne_overflow (width : Nat) (ofNat : Nat → α) (ea : Nat)
    : db.readWidth width ofNat ea ≠ .error readOverflow := by
  unfold Database.readWidth
  split
  . simp [Error.notFound, readOverflow, Error.validation]
  . simp

theorem map_ne_error {r : Result α} {e : Error} (h : r ≠ .error e) (f : α → β)
    : r.map f ≠ .error e := by
  cases r with
  | error e' =>
    intro heq
    injection heq with heq
    rw [heq] at h
    exact h rfl
  | ok a => simp [Except.map]

theorem readUnsignedFixed_ne_overflow (ea width : Nat)
    : readUnsignedFixed db ea width ≠ .error readOverflow := by
  unfold readUnsignedFixed
  split
  . apply map_ne_error (readWidth_ne_overflow 1 _ ea)
  . apply map_ne_error (readWidth_ne_overflow 2 _ ea)
  . apply map_ne_error (readWidth_ne_overflow 4 _ ea)
  . apply readWidth_ne_overflow
  . simp [unsupportedWidth, Error.unsupported, readOverflow, Error.validation]

theorem readSignedFixed_ne_overflow (ea width : Nat)
    : readSignedFixed db ea width ≠ .error readOverflow := by
  have hread := @readUnsignedFixed_ne_overflow db ea width
  unfold readSignedFixed
  cases hvalue : readUnsignedFixed db ea width with
  | error e =>
    intro heq
    injection heq with heq
    rw [hvalue, heq] at hread
    exact hread rfl
  | ok value =>
    rw [ok_bind]
    split <;> simp [unsupportedWidth, Error.unsupported, readOverflow, Error.validation]

theorem bind_ok_ne_error {r : Result α} {e : Error} (h : r ≠ .error e) (f : α → β)
    : (do let a ← r; .ok (f a) : Result β) ≠ .error e := by
  cases r with
  | error e' => exact map_ne_error h f
  | ok a => simp

theorem readBytes_ne_overflow (ea count : Nat) : db.readBytes ea count ≠ .error readOverflow := by
  unfold Database.readBytes
  split <;> simp

variable {casts : FloatCasts}

theorem readScalar_ne_overflow (ea : Nat) (ti : TypeInfo) (size : Nat)
    : readScalar casts db ea ti size ≠ .error readOverflow := by
  unfold readScalar
  split
  . apply bind_ok_ne_error (readUnsignedFixed_ne_overflow ea size)
  . split
    . split
      . apply bind_ok_ne_error (readWidth_ne_overflow 4 _ ea)
      . split
        . apply bind_ok_ne_error (readWidth_ne_overflow 8 _ ea)
        . apply bind_ok_ne_error (readBytes_ne_overflow ea size)
    . split
      . split
        . apply bind_ok_ne_error (readBytes_ne_overflow ea size)
        . split
          . apply bind_ok_ne_error (readSignedFixed_ne_overflow ea size)
          . apply bind_ok_ne_error (readUnsignedFixed_ne_overflow ea size)
      . apply bind_ok_ne_error (readBytes_ne_overflow ea size)

theorem readable_of_readScalar {ea : Nat} {ti : TypeInfo} {size : Nat} {v : TypedValue}
    (h : readScalar casts db ea ti size = .ok v) : ti.Readable size := by
  unfold readScalar at h
  unfold TypeInfo.Readable
  split
  . next hpointer =>
    rw [if_pos hpointer, bind_eq_ok_iff] at h
    rcases h with ⟨raw, hraw, _⟩
    apply validWidth_of_readUnsignedFixed hraw
  . next hpointer =>
    rw [if_neg hpointer] at h
    split
    . trivial
    . next hfloat =>
      rw [if_neg hfloat] at h
      split
      . next hinteger =>
        rw [if_pos hinteger] at h
        by_cases hwide : 8 < size
        . exact .inl hwide
        . rw [if_neg hwide] at h
          right
          split at h
          . rw [bind_eq_ok_iff] at h
            rcases h with ⟨value, hvalue, _⟩
            rw [readSignedFixed, bind_eq_ok_iff] at hvalue
            rcases hvalue with ⟨raw, hraw, _⟩
            apply validWidth_of_readUnsignedFixed hraw
          . rw [bind_eq_ok_iff] at h
            rcases h with ⟨raw, hraw, _⟩
            apply validWidth_of_readUnsignedFixed hraw
      . trivial

theorem readScalar_of_readable (hdb : db.FullyLoaded) (ea : Nat) {ti : TypeInfo} {size : Nat}
    (h : ti.Readable size) : ∃ v, readScalar casts db ea ti size = .ok v := by
  unfold TypeInfo.Readable at h
  unfold readScalar
  split
  . next hpointer =>
    rw [if_pos hpointer] at h
    rw [readUnsignedFixed_eq hdb h]
    exact ⟨_, rfl⟩
  . next hpointer =>
    rw [if_neg hpointer] at h
    split
    . split
      . rw [Database.readDword, Database.readWidth_eq hdb]
        exact ⟨_, rfl⟩
      . split
        . rw [Database.readQword, Database.readWidth_eq hdb]
          exact ⟨_, rfl⟩
        . rw [Database.readBytes_eq hdb]
          exact ⟨_, rfl⟩
    . next hfloat =>
      rw [if_neg hfloat] at h
      split
      . next hinteger =>
        rw [if_pos hinteger] at h
        split
        . rw [Database.readBytes_eq hdb]
          exact ⟨_, rfl⟩
        . next hwide =>
          have hwidth := h.resolve_left hwide
          split
          . rw [readSignedFixed_eq hdb hwidth]
            exact ⟨_, rfl⟩
          . rw [readUnsignedFixed_eq hdb hwidth]
            exact ⟨_, rfl⟩
      . rw [Database.readBytes_eq hdb]
        exact ⟨_, rfl⟩

end Read

section Write

variable {db : Database} {casts : FloatCasts}

theorem writeUnsignedFixed_outcome (ea width : Nat) (value : UInt64)
    : ((writeUnsignedFixed db ea width value).fst = ok → ValidWidth width)
        ∧ (writeUnsignedFixed db ea width value).fst ≠ .error writeOverflow := by
  cases hfits : fitsUnsignedWidth width value with
  | true =>
    rw [writeUnsignedFixed_of_fits hfits]
    refine ⟨fun _ => ((fitsUnsignedWidth_iff width value).mp hfits).left, ?_⟩
    simp [ok]
  | false =>
    rw [writeUnsignedFixed_of_not_fits hfits]
    simp [ok, Error.validation, writeOverflow]

theorem writeSignedFixed_outcome (ea width : Nat) (value : Int64)
    : ((writeSignedFixed db ea width value).fst = ok → ValidWidth width)
        ∧ (writeSignedFixed db ea width value).fst ≠ .error writeOverflow := by
  cases hfits : fitsSignedWidth width value with
  | true =>
    rw [writeSignedFixed_of_fits hfits]
    refine ⟨fun _ => ((fitsSignedWidth_iff width value).mp hfits).left, ?_⟩
    simp [ok]
  | false =>
    rw [writeSignedFixed_of_not_fits hfits]
    simp [ok, Error.validation, writeOverflow]

theorem writeScalar_outcome (ea : Nat) (ti : TypeInfo) (size : Nat) (value : TypedValue)
    : ((writeScalar casts ea ti size value db).fst = ok → ti.Storable size)
        ∧ (writeScalar casts ea ti size value db).fst ≠ .error writeOverflow := by
  unfold writeScalar TypeInfo.Storable
  split
  . cases value.kind with
    | pointer => apply writeUnsignedFixed_outcome
    | unsignedInteger => apply writeUnsignedFixed_outcome
    | _ => simp [ok, Error.validation, writeOverflow]
  . split
    . split
      . simp [ok, Error.validation, writeOverflow]
      . split
        . next hsize => simp [hsize, Database.writeDword, ok]
        . split
          . next hsize => simp [hsize, Database.writeQword, ok]
          . simp [ok, Error.unsupported, Error.validation, writeOverflow]
    . split
      . split
        . cases value.kind with
          | signedInteger => apply writeSignedFixed_outcome
          | unsignedInteger =>
            dsimp only
            split
            . simp [ok, Error.validation, writeOverflow]
            . apply writeSignedFixed_outcome
          | _ => simp [ok, Error.validation, writeOverflow]
        . cases value.kind with
          | unsignedInteger => apply writeUnsignedFixed_outcome
          | signedInteger =>
            dsimp only
            split
            . simp [ok, Error.validation, writeOverflow]
            . apply writeUnsignedFixed_outcome
          | _ => simp [ok, Error.validation, writeOverflow]
      . refine ⟨fun _ => trivial, ?_⟩
        split
        . simp [Error.validation, writeOverflow]
        . split
          . simp [Error.validation, writeOverflow]
          . simp [Database.writeBytes_eq, ok]

theorem writeUnsignedFixed_zero {width : Nat} (h : ValidWidth width) (ea : Nat)
    : (writeUnsignedFixed db ea width 0).fst = ok := by
  rw [writeUnsignedFixed_of_fits ((fitsUnsignedWidth_iff width 0).mpr ⟨h, Nat.pow_pos (by decide)⟩)]

theorem writeSignedFixed_zero {width : Nat} (h : ValidWidth width) (ea : Nat)
    : (writeSignedFixed db ea width 0).fst = ok := by
  have hzero : (0 : Int64).toInt.bmod (256 ^ width) = (0 : Int64).toInt := Int.zero_bmod
  rw [writeSignedFixed_of_fits ((fitsSignedWidth_iff width 0).mpr ⟨h, hzero⟩)]

theorem writeScalar_of_storable {ti : TypeInfo} {size : Nat} (h : ti.Storable size)
    : ∃ value, ∀ ea db, (writeScalar casts ea ti size value db).fst = ok := by
  unfold TypeInfo.Storable at h
  split at h
  . next hpointer =>
    refine ⟨{ kind := .pointer, pointerValue := 0 }, ?_⟩
    intro ea db
    rw [writeScalar, if_pos hpointer]
    apply writeUnsignedFixed_zero h
  . next hpointer =>
    split at h
    . next hfloat =>
      refine ⟨{ kind := .floatingPoint }, ?_⟩
      intro ea db
      rw [writeScalar, if_neg hpointer, if_pos hfloat]
      rcases h with hsize | hsize
      . rw [hsize]
        rfl
      . rw [hsize]
        rfl
    . next hfloat =>
      split at h
      . next hinteger =>
        refine ⟨{ kind := .unsignedInteger, unsignedValue := 0 }, ?_⟩
        intro ea db
        rw [writeScalar, if_neg hpointer, if_neg hfloat, if_pos hinteger]
        split
        . apply writeSignedFixed_zero h
        . apply writeUnsignedFixed_zero h
      . next hinteger =>
        refine ⟨{ kind := .bytes, bytes := List.replicate size 0 }, ?_⟩
        intro ea db
        rw [writeScalar, if_neg hpointer, if_neg hfloat, if_neg hinteger]
        simp [Database.writeBytes_eq]

end Write

end Data
end Idax
