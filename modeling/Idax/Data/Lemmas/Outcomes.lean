import Idax.Data.Lemmas.Blocks

/-!
When reading and writing a type succeeds and when it ends in an address overflow.
-/

namespace Idax
namespace Data

theorem elementAddress_eq (message : String) (address size i : Nat)
    : elementAddress message address size i
        = if address + size * i ≤ badAddress then
            .ok (address + size * i)
          else
            .error (.validation message) := by
  unfold elementAddress
  split
  . next hproduct =>
    have hlt : size * i > badAddress := (Nat.div_lt_iff_lt_mul (by omega)).mp hproduct.right
    rw [if_neg (by omega)]
  . next hproduct =>
    have hle : size * i ≤ badAddress := by
      by_cases hi : i = 0
      . rw [hi]
        apply Nat.zero_le
      . have hdiv : size ≤ badAddress / i := by
          by_contra hlt
          exact hproduct ⟨hi, by omega⟩
        apply (Nat.le_div_iff_mul_le (by omega)).mp hdiv
    dsimp only
    split
    . rw [if_neg (by omega)]
    . rw [if_pos (by omega)]

structure ReadsAs (db : Database) (fits : Prop) (r : Result α) : Prop where
  fits_of_ok : ∀ v, r = .ok v → fits
  not_fits_of_overflow : r = .error readOverflow → ¬fits
  ok_of_fits : db.FullyLoaded → fits → ∃ v, r = .ok v
  overflow_of_not_fits : db.FullyLoaded → ¬fits → r = .error readOverflow

namespace ReadsAs

variable {db : Database} {fits : Prop} {r : Result α}

theorem congr {fits' : Prop} (h : ReadsAs db fits r) (hfits : fits ↔ fits') : ReadsAs db fits' r := by
  rw [← hfits]
  exact h

theorem map (h : ReadsAs db fits r) (f : α → β) : ReadsAs db fits (r.map f) := by
  cases r with
  | error e =>
    constructor
    case fits_of_ok =>
      intro v hv
      cases hv
    case not_fits_of_overflow =>
      intro he
      apply h.not_fits_of_overflow
      cases he
      rfl
    case ok_of_fits =>
      intro hdb hfits
      rcases h.ok_of_fits hdb hfits with ⟨v, hv⟩
      cases hv
    case overflow_of_not_fits =>
      intro hdb hfits
      cases h.overflow_of_not_fits hdb hfits
      rfl
  | ok a =>
    have hfits := h.fits_of_ok a rfl
    constructor
    case fits_of_ok => exact fun _ _ => hfits
    case not_fits_of_overflow =>
      intro he
      cases he
    case ok_of_fits => exact fun _ _ => ⟨f a, rfl⟩
    case overflow_of_not_fits => exact fun _ hnot => absurd hfits hnot

theorem of_ok {a : α} (h : fits) : ReadsAs db fits (.ok a : Result α) where
  fits_of_ok _ _ := h
  not_fits_of_overflow he := by cases he
  ok_of_fits _ _ := ⟨a, rfl⟩
  overflow_of_not_fits _ hnot := absurd h hnot

theorem of_overflow (h : ¬fits) : ReadsAs db fits (.error readOverflow : Result α) where
  fits_of_ok _ hv := by cases hv
  not_fits_of_overflow _ := h
  ok_of_fits _ hfits := absurd hfits h
  overflow_of_not_fits _ _ := rfl

theorem of_part_error {part : Prop} {e : Error} (h : ReadsAs db part (.error e : Result α))
    (hpart : fits → part) : ReadsAs db fits (.error e : Result β) := by
  constructor
  case fits_of_ok =>
    intro v hv
    cases hv
  case not_fits_of_overflow =>
    intro he hfits
    cases he
    exact h.not_fits_of_overflow rfl (hpart hfits)
  case ok_of_fits =>
    intro hdb hfits
    rcases h.ok_of_fits hdb (hpart hfits) with ⟨v, hv⟩
    cases hv
  case overflow_of_not_fits =>
    intro hdb _
    have hnot : ¬part := by
      intro hfits
      rcases h.ok_of_fits hdb hfits with ⟨v, hv⟩
      cases hv
    cases h.overflow_of_not_fits hdb hnot
    rfl

end ReadsAs

section Read

variable {db : Database} {casts : FloatCasts}

theorem readElements_reads {read : Nat → Result TypedValue} {size block : Nat} (hblock : block ≤ size)
    (hread : ∀ a : Nat, a ≤ badAddress → ReadsAs db (a + size ≤ badAddress + block) (read a))
    (address count i : Nat)
    : ReadsAs db (count = 0 ∨ address + size * (i + count) ≤ badAddress + block)
        (readElements read address size count i) := by
  induction count generalizing i with
  | zero => exact .of_ok (.inl rfl)
  | succ count ih =>
    have hnext : size * (i + 1) = size * i + size := Nat.mul_succ size i
    have hlast : size * (i + 1) ≤ size * (i + (count + 1)) :=
      Nat.mul_le_mul_left size (by omega)
    rw [readElements, elementAddress_eq]
    split
    . next haddress =>
      rw [ok_bind]
      have hone := hread _ haddress
      cases hvalue : read (address + size * i) with
      | error e =>
        rw [hvalue] at hone
        apply hone.of_part_error
        omega
      | ok value =>
        have hfits := hone.fits_of_ok value hvalue
        rw [ok_bind]
        apply ((ih (i + 1)).map (value :: ·)).congr
        rw [show i + 1 + count = i + (count + 1) by omega]
        constructor
        . rintro (hzero | hle)
          . rw [hzero, Nat.zero_add]
            omega
          . omega
        . omega
    . next haddress =>
      apply ReadsAs.of_overflow
      omega

theorem readTypedImpl_reads {levels : Nat} {ti : TypeInfo} {block : Nat}
    (h : ti.Reads levels block) (hpos : 0 < ti.extent) {address : Nat} (haddress : address ≤ badAddress)
    : ReadsAs db (address + ti.extent ≤ badAddress + block)
        (readTypedImpl casts db levels address ti) := by
  induction levels, ti using TypeInfo.induction_realtype generalizing block address with
  | hzero ti => cases h
  | hreal levels ti ih =>
    rw [← TypeInfo.extent_realtype] at hpos ⊢
    rw [← TypeInfo.reads_realtype] at h
    rw [← readTypedImpl_realtype]
    apply ih h hpos haddress
  | hscalar levels ti hti =>
    rw [TypeInfo.reads_scalar hti] at h
    rw [readTypedImpl_scalar hti, h.left, (TypeInfo.extent_checked h.left).left]
    constructor
    case fits_of_ok =>
      intro v _
      omega
    case not_fits_of_overflow =>
      intro he
      exact absurd he (readScalar_ne_overflow address ti block)
    case ok_of_fits =>
      intro hdb _
      apply readScalar_of_readable hdb address h.right
    case overflow_of_not_fits =>
      intro _ hnot
      omega
  | hunresolved levels name => cases h
  | huncounted levels element length hcounted => exact absurd h.left hcounted
  | hbytes levels element length hcounted hbyte ih =>
    rw [TypeInfo.reads_bytes hbyte] at h
    have hfits : address + (TypeInfo.array element length).extent ≤ badAddress + block := by
      rw [TypeInfo.extent_bytes hbyte, h.right]
      omega
    simp only [readTypedImpl, resolveIfTypedef_array, ok_bind, TypeInfo.isArray_array, ↓reduceIte,
      TypeInfo.arrayElementType_array, TypeInfo.arrayLength_of_counted hcounted, hbyte]
    unfold Database.readBytes
    split <;> exact .of_ok hfits
  | harray levels element length hcounted hbyte ih =>
    rw [TypeInfo.reads_array hbyte] at h
    rcases h with ⟨_, ⟨size, hsize⟩, h⟩
    rcases TypeInfo.extent_checked hsize with ⟨hextent, hsizepos⟩
    rw [TypeInfo.extent_array hsize] at hpos ⊢
    rw [readTypedImpl_array hcounted hbyte, hsize]
    have hblock := h.block_le (by omega)
    have hone (a : Nat) (ha : a ≤ badAddress)
        : ReadsAs db (a + size ≤ badAddress + block) (readTypedImpl casts db levels a element) := by
      rw [← hextent]
      apply ih element h (by omega) ha
    rw [hextent] at hblock
    apply ((readElements_reads hblock hone address length.toNat 0).map _).congr
    have hlength := Nat.pos_of_mul_pos_left hpos
    rw [Nat.zero_add]
    omega

theorem read_of_readElements {read : Nat → Result TypedValue} {size count address : Nat}
    (haddress : address ≤ badAddress)
    (h : (∃ vs, readElements read address size (count + 1) 0 = .ok vs)
      ∨ readElements read address size (count + 1) 0 = .error readOverflow)
    : (∃ v, read address = .ok v) ∨ read address = .error readOverflow := by
  rw [readElements, elementAddress_eq, Nat.mul_zero, Nat.add_zero, if_pos haddress, ok_bind] at h
  cases hvalue : read address with
  | ok v => exact .inl ⟨v, rfl⟩
  | error e =>
    rw [hvalue] at h
    rcases h with ⟨vs, hvs⟩ | he
    . cases hvs
    . right
      cases he
      rfl

theorem reads_of_readTypedImpl {levels : Nat} {ti : TypeInfo} (hpos : 0 < ti.extent) {address : Nat}
    (haddress : address ≤ badAddress)
    (h : (∃ v, readTypedImpl casts db levels address ti = .ok v)
      ∨ readTypedImpl casts db levels address ti = .error readOverflow)
    : ∃ block, ti.Reads levels block := by
  induction levels, ti using TypeInfo.induction_realtype generalizing address with
  | hzero ti =>
    rw [readTypedImpl] at h
    simp [readOverflow, Error.validation] at h
  | hreal levels ti ih =>
    rw [← TypeInfo.extent_realtype] at hpos
    simp only [← TypeInfo.reads_realtype levels ti]
    rw [← readTypedImpl_realtype] at h
    apply ih hpos haddress h
  | hscalar levels ti hti =>
    simp only [TypeInfo.reads_scalar hti]
    rw [readTypedImpl_scalar hti] at h
    cases hsize : checkedTypeSize ti with
    | error e =>
      rw [hsize] at h
      rcases h with ⟨v, hv⟩ | he
      . cases hv
      . cases he
        exact absurd rfl (checkedTypeSize_error hsize).left
    | ok size =>
      rw [hsize] at h
      rcases h with ⟨v, hv⟩ | he
      . exact ⟨size, rfl, readable_of_readScalar hv⟩
      . exact absurd he (readScalar_ne_overflow address ti size)
  | hunresolved levels name => cases hpos
  | huncounted levels element length hcounted =>
    rw [readTypedImpl_uncounted hcounted] at h
    simp [TypeInfo.uncounted, readOverflow, Error.sdk, Error.validation] at h
  | hbytes levels element length hcounted hbyte ih =>
    exact ⟨length.toNat, (TypeInfo.reads_bytes hbyte length).mpr ⟨hcounted, rfl⟩⟩
  | harray levels element length hcounted hbyte ih =>
    rw [readTypedImpl_array hcounted hbyte] at h
    cases hsize : checkedTypeSize element with
    | error e =>
      rw [hsize] at h
      rcases h with ⟨v, hv⟩ | he
      . cases hv
      . cases he
        exact absurd rfl (checkedTypeSize_error hsize).left
    | ok size =>
      rcases TypeInfo.extent_checked hsize with ⟨hextent, hsizepos⟩
      rw [TypeInfo.extent_array hsize] at hpos
      rw [hsize] at h
      cases hlength : length.toNat with
      | zero =>
        rw [hlength] at hpos
        cases hpos
      | succ count =>
        rw [hlength] at h
        have helements : (∃ vs, readElements (fun a => readTypedImpl casts db levels a element) address
              size (count + 1) 0 = .ok vs)
            ∨ readElements (fun a => readTypedImpl casts db levels a element) address
              size (count + 1) 0 = .error readOverflow := by
          simp only [Except.bind] at h
          cases helements : readElements (fun a => readTypedImpl casts db levels a element) address
            size (count + 1) 0 with
          | ok vs => exact .inl ⟨vs, rfl⟩
          | error e =>
            rw [helements] at h
            rcases h with ⟨v, hv⟩ | he
            . cases hv
            . cases he
              exact .inr rfl
        rcases ih element (by omega) haddress (read_of_readElements haddress helements) with ⟨block, hreads⟩
        exact ⟨block, (TypeInfo.reads_array hbyte _).mpr ⟨hcounted, ⟨size, hsize⟩, hreads⟩⟩

end Read

section Write

variable {casts : FloatCasts}

theorem writeElements_overflow {write : Nat → TypedValue → Database → Status × Database} {size : Nat}
    (hwrite : ∀ (a : Nat) (v : TypedValue) (db : Database), a ≤ badAddress →
      (write a v db).fst = .error writeOverflow → a + size > badAddress)
    {address i : Nat} {vs : List TypedValue} {db : Database}
    (h : (writeElements write address size i vs db).fst = .error writeOverflow)
    : address + size * (i + vs.length) > badAddress := by
  induction vs generalizing i db with
  | nil => cases h
  | cons v vs ih =>
    have hnext : size * (i + 1) = size * i + size := Nat.mul_succ size i
    have hlast : size * (i + 1) ≤ size * (i + (v :: vs).length) := by
      apply Nat.mul_le_mul_left size
      rw [List.length_cons]
      omega
    rw [writeElements, elementAddress_eq] at h
    by_cases haddress : address + size * i ≤ badAddress
    . rw [if_pos haddress] at h
      dsimp only at h
      have hone := hwrite _ v db haddress
      rcases hresult : write (address + size * i) v db with ⟨status, db'⟩
      rw [hresult] at h hone
      cases status with
      | ok u =>
        have hrest := ih h
        rw [show i + 1 + vs.length = i + (v :: vs).length by rw [List.length_cons]; omega] at hrest
        exact hrest
      | error e =>
        have := hone h
        omega
    . omega

theorem writeElements_ok {write : Nat → TypedValue → Database → Status × Database} {size block : Nat}
    (hwrite : ∀ (a : Nat) (v : TypedValue) (db : Database), a ≤ badAddress →
      (write a v db).fst = ok → a + size ≤ badAddress + block)
    {address i : Nat} {vs : List TypedValue} {db : Database}
    (h : (writeElements write address size i vs db).fst = ok)
    : vs = [] ∨ address + size * (i + vs.length) ≤ badAddress + block := by
  induction vs generalizing i db with
  | nil => exact .inl rfl
  | cons v vs ih =>
    have hnext : size * (i + 1) = size * i + size := Nat.mul_succ size i
    rw [writeElements, elementAddress_eq] at h
    by_cases haddress : address + size * i ≤ badAddress
    . rw [if_pos haddress] at h
      dsimp only at h
      have hone := hwrite _ v db haddress
      rcases hresult : write (address + size * i) v db with ⟨status, db'⟩
      rw [hresult] at h hone
      cases status with
      | ok u =>
        have hfits := hone rfl
        right
        rcases ih h with hnil | hle
        . rw [hnil, List.length_singleton]
          omega
        . rw [List.length_cons, show i + (vs.length + 1) = i + 1 + vs.length by omega]
          exact hle
      | error e => cases h
    . rw [if_neg haddress] at h
      cases h

theorem writeTypedImpl_overflow {levels : Nat} {ti : TypeInfo} {address : Nat}
    (haddress : address ≤ badAddress) {value : TypedValue} {db : Database}
    (h : (writeTypedImpl casts levels address ti value db).fst = .error writeOverflow)
    : address + ti.extent > badAddress := by
  induction levels generalizing ti address value db with
  | zero =>
    rw [writeTypedImpl] at h
    simp [writeOverflow, Error.validation] at h
  | succ levels ih =>
    rw [← TypeInfo.extent_realtype]
    rw [← writeTypedImpl_realtype] at h
    have htypedef := ti.realtype_ne_typedef
    generalize ti.realtype = t at h htypedef
    have hscalar (hti : t.IsScalar) : address + t.extent > badAddress := by
      rw [writeTypedImpl_scalar hti] at h
      cases hsize : checkedTypeSize t with
      | error e =>
        rw [hsize] at h
        cases h
        exact absurd rfl (checkedTypeSize_error hsize).right
      | ok size =>
        rw [hsize] at h
        exact absurd h (writeScalar_outcome address t size value).right
    cases t with
    | typedef target => exact absurd rfl (htypedef target)
    | unresolved name => cases h
    | array element length =>
      have hcounted : TypeInfo.Counted length := by
        by_contra hcounted
        rw [writeTypedImpl_uncounted hcounted] at h
        simp [TypeInfo.uncounted, writeOverflow, Error.sdk, Error.validation] at h
      by_cases hcase : isByteInteger element = true ∧ (value.kind = .bytes ∨ value.kind = .string)
      . rw [writeTypedImpl_bytes hcounted hcase.left hcase.right] at h
        unfold byteArrayContent at h
        split at h
        . next e he =>
          split at he
          . split at he <;> cases he
            simp [writeOverflow, Error.validation] at h
          . split at he <;> cases he
            simp [writeOverflow, Error.validation] at h
        . cases h
      . rw [writeTypedImpl_array hcounted hcase] at h
        split at h
        . simp [writeOverflow, Error.validation] at h
        . split at h
          . simp [writeOverflow, Error.validation] at h
          . next hlength =>
            cases hsize : checkedTypeSize element with
            | error e =>
              rw [hsize] at h
              cases h
              exact absurd rfl (checkedTypeSize_error hsize).right
            | ok size =>
              rw [hsize] at h
              have hone (a : Nat) (v : TypedValue) (db : Database) (ha : a ≤ badAddress)
                  (he : (writeTypedImpl casts levels a element v db).fst = .error writeOverflow)
                  : a + size > badAddress := by
                rw [← (TypeInfo.extent_checked hsize).left]
                apply ih ha he
              have hover := writeElements_overflow hone h
              rw [Classical.not_not.mp hlength, Nat.zero_add] at hover
              rw [TypeInfo.extent_array hsize]
              exact hover
    | _ => exact hscalar trivial

theorem writeTypedImpl_ok {levels : Nat} {ti : TypeInfo} {block : Nat} (hreads : ti.Reads levels block)
    (hpos : 0 < ti.extent) {address : Nat} (haddress : address ≤ badAddress) {value : TypedValue}
    {db : Database} (h : (writeTypedImpl casts levels address ti value db).fst = ok)
    : address + ti.extent ≤ badAddress + block := by
  induction levels, ti using TypeInfo.induction_realtype generalizing block address value db with
  | hzero ti => cases hreads
  | hreal levels ti ih =>
    rw [← TypeInfo.extent_realtype] at hpos ⊢
    rw [← TypeInfo.reads_realtype] at hreads
    rw [← writeTypedImpl_realtype] at h
    apply ih hreads hpos haddress h
  | hscalar levels ti hti =>
    rw [TypeInfo.reads_scalar hti] at hreads
    rw [(TypeInfo.extent_checked hreads.left).left]
    omega
  | hunresolved levels name => cases hreads
  | huncounted levels element length hcounted => exact absurd hreads.left hcounted
  | hbytes levels element length hcounted hbyte ih =>
    rw [TypeInfo.reads_bytes hbyte] at hreads
    rw [TypeInfo.extent_bytes hbyte, hreads.right]
    omega
  | harray levels element length hcounted hbyte ih =>
    have hcase : ¬(isByteInteger element = true ∧ (value.kind = .bytes ∨ value.kind = .string)) := by
      simp [hbyte]
    rcases elements_of_writeTypedImpl hcase h with ⟨hkind, hlength, size, hsize⟩
    rw [TypeInfo.reads_array hbyte] at hreads
    rcases TypeInfo.extent_checked hsize with ⟨hextent, hsizepos⟩
    rw [writeTypedImpl_elements hcounted hkind hlength hsize] at h
    rw [TypeInfo.extent_array hsize] at hpos ⊢
    have hone (a : Nat) (v : TypedValue) (db : Database) (ha : a ≤ badAddress)
        (hok : (writeTypedImpl casts levels a element v db).fst = ok)
        : a + size ≤ badAddress + block := by
      rw [← hextent]
      apply ih element hreads.right.right (by omega) ha hok
    have hall := writeElements_ok hone h
    rw [hlength, Nat.zero_add] at hall
    apply hall.resolve_left
    intro hnil
    rw [hnil] at hlength
    rw [← hlength] at hpos
    cases hpos

theorem write_of_writeElements {write : Nat → TypedValue → Database → Status × Database} {size : Nat}
    {address : Nat} (haddress : address ≤ badAddress) {v : TypedValue} {vs : List TypedValue}
    {db : Database}
    (h : (writeElements write address size 0 (v :: vs) db).fst = ok
      ∨ (writeElements write address size 0 (v :: vs) db).fst = .error writeOverflow)
    : (write address v db).fst = ok ∨ (write address v db).fst = .error writeOverflow := by
  rw [writeElements, elementAddress_eq, Nat.mul_zero, Nat.add_zero, if_pos haddress] at h
  dsimp only at h
  rcases hresult : write address v db with ⟨status, db'⟩
  rw [hresult] at h
  cases status with
  | ok u => exact .inl rfl
  | error e =>
    rcases h with hok | he
    . cases hok
    . exact .inr he

theorem writable_of_writeTypedImpl {levels : Nat} {ti : TypeInfo} (hpos : 0 < ti.extent)
    {address : Nat} (haddress : address ≤ badAddress) {value : TypedValue} {db : Database}
    (h : (writeTypedImpl casts levels address ti value db).fst = ok
      ∨ (writeTypedImpl casts levels address ti value db).fst = .error writeOverflow)
    : ti.Writable levels := by
  induction levels, ti using TypeInfo.induction_realtype generalizing address value db with
  | hzero ti =>
    rw [writeTypedImpl] at h
    simp [ok, writeOverflow, Error.validation] at h
  | hreal levels ti ih =>
    rw [← TypeInfo.extent_realtype] at hpos
    rw [← TypeInfo.writable_realtype]
    rw [← writeTypedImpl_realtype] at h
    apply ih hpos haddress h
  | hscalar levels ti hti =>
    rw [TypeInfo.writable_scalar hti]
    rw [writeTypedImpl_scalar hti] at h
    cases hsize : checkedTypeSize ti with
    | error e =>
      rw [hsize] at h
      rcases h with hok | he
      . cases hok
      . cases he
        exact absurd rfl (checkedTypeSize_error hsize).right
    | ok size =>
      rw [hsize] at h
      rcases @writeScalar_outcome db casts address ti size value with ⟨hstorable, hne⟩
      exact ⟨size, rfl, hstorable (h.resolve_right hne)⟩
  | hunresolved levels name => cases hpos
  | huncounted levels element length hcounted =>
    rw [writeTypedImpl_uncounted hcounted] at h
    simp [TypeInfo.uncounted, ok, writeOverflow, Error.sdk, Error.validation] at h
  | hbytes levels element length hcounted hbyte ih =>
    rw [TypeInfo.writable_array]
    exact ⟨hcounted, .inl hbyte⟩
  | harray levels element length hcounted hbyte ih =>
    rw [TypeInfo.writable_array]
    refine ⟨hcounted, ?_⟩
    right
    rw [writeTypedImpl_array hcounted (by simp [hbyte])] at h
    split at h
    . simp [ok, writeOverflow, Error.validation] at h
    . split at h
      . simp [ok, writeOverflow, Error.validation] at h
      . next hlength =>
        have hlength := Classical.not_not.mp hlength
        cases hsize : checkedTypeSize element with
        | error e =>
          rw [hsize] at h
          rcases h with hok | he
          . cases hok
          . cases he
            exact absurd rfl (checkedTypeSize_error hsize).right
        | ok size =>
          rcases TypeInfo.extent_checked hsize with ⟨hextent, hsizepos⟩
          rw [TypeInfo.extent_array hsize] at hpos
          rw [hsize] at h
          refine ⟨⟨size, rfl⟩, ?_⟩
          cases hvs : value.elements with
          | nil =>
            rw [hvs] at hlength
            rw [← hlength] at hpos
            cases hpos
          | cons v vs =>
            rw [hvs] at h
            apply ih element (by omega) haddress (write_of_writeElements haddress h)

theorem writeElements_replicate {write : Nat → TypedValue → Database → Status × Database}
    {size block : Nat} {v : TypedValue}
    (hwrite : ∀ (a : Nat) (db : Database), a ≤ badAddress → a + size > badAddress + block →
      (write a v db).fst = .error writeOverflow)
    (hfits : ∀ (a : Nat) (db : Database), a + size ≤ badAddress + block → (write a v db).fst = ok)
    {address count i : Nat} {db : Database}
    (h : address + size * (i + (count + 1)) > badAddress + block)
    : (writeElements write address size i (List.replicate (count + 1) v) db).fst
        = .error writeOverflow := by
  induction count generalizing i db with
  | zero =>
    have hnext : size * (i + 1) = size * i + size := Nat.mul_succ size i
    rw [Nat.zero_add] at h
    rw [List.replicate_succ, writeElements, elementAddress_eq]
    by_cases haddress : address + size * i ≤ badAddress
    . rw [if_pos haddress]
      dsimp only
      have hone := hwrite (address + size * i) db haddress (by omega)
      rcases hresult : write (address + size * i) v db with ⟨status, db'⟩
      rw [hresult] at hone
      rw [show status = .error writeOverflow from hone]
    . rw [if_neg haddress]
      rfl
  | succ count ih =>
    rw [List.replicate_succ, writeElements, elementAddress_eq]
    by_cases haddress : address + size * i ≤ badAddress
    . rw [if_pos haddress]
      dsimp only
      by_cases hone : address + size * i + size ≤ badAddress + block
      . have hok := hfits (address + size * i) db hone
        rcases hresult : write (address + size * i) v db with ⟨status, db'⟩
        rw [hresult] at hok
        rw [show status = ok from hok]
        apply ih
        rw [show i + 1 + (count + 1) = i + (count + 1 + 1) by omega]
        exact h
      . have hover := hwrite (address + size * i) db haddress (by omega)
        rcases hresult : write (address + size * i) v db with ⟨status, db'⟩
        rw [hresult] at hover
        rw [show status = .error writeOverflow from hover]
    . rw [if_neg haddress]
      rfl

theorem writeElements_replicate_ok {write : Nat → TypedValue → Database → Status × Database}
    {size block : Nat} (hblock : block ≤ size) {v : TypedValue}
    (hfits : ∀ (a : Nat) (db : Database), a + size ≤ badAddress + block → (write a v db).fst = ok)
    {address count i : Nat} {db : Database}
    (h : address + size * (i + count) ≤ badAddress + block)
    : (writeElements write address size i (List.replicate count v) db).fst = ok := by
  induction count generalizing i db with
  | zero => rfl
  | succ count ih =>
    have hnext : size * (i + 1) = size * i + size := Nat.mul_succ size i
    have hlast : size * (i + 1) ≤ size * (i + (count + 1)) :=
      Nat.mul_le_mul_left size (by omega)
    rw [List.replicate_succ, writeElements, elementAddress_eq, if_pos (by omega)]
    dsimp only
    have hok := hfits (address + size * i) db (by omega)
    rcases hresult : write (address + size * i) v db with ⟨status, db'⟩
    rw [hresult] at hok
    rw [show status = ok from hok]
    apply ih
    rw [show i + 1 + count = i + (count + 1) by omega]
    exact h

theorem writeTypedImpl_of_writable {levels : Nat} {ti : TypeInfo} (h : ti.Writable levels)
    : ∃ value, ∀ block, ti.Reads levels block → 0 < ti.extent →
        ∀ (address : Nat) (db : Database), address ≤ badAddress →
          (address + ti.extent ≤ badAddress + block →
              (writeTypedImpl casts levels address ti value db).fst = ok)
            ∧ (address + ti.extent > badAddress + block →
                (writeTypedImpl casts levels address ti value db).fst = .error writeOverflow) := by
  induction levels, ti using TypeInfo.induction_realtype with
  | hzero ti => cases h
  | hreal levels ti ih =>
    rw [← TypeInfo.writable_realtype] at h
    simp only [← TypeInfo.extent_realtype ti, ← TypeInfo.reads_realtype levels ti,
      ← @writeTypedImpl_realtype casts _ levels _ ti]
    apply ih h
  | hscalar levels ti hti =>
    rcases (TypeInfo.writable_scalar hti).mp h with ⟨size, hsize, hstorable⟩
    rcases @writeScalar_of_storable casts ti size hstorable with ⟨value, hvalue⟩
    refine ⟨value, ?_⟩
    intro block hreads _ address db haddress
    rw [TypeInfo.reads_scalar hti] at hreads
    rw [writeTypedImpl_scalar hti, hsize, (TypeInfo.extent_checked hreads.left).left]
    constructor
    . intro _
      apply hvalue
    . omega
  | hunresolved levels name => cases h
  | huncounted levels element length hcounted => exact absurd h.left hcounted
  | hbytes levels element length hcounted hbyte ih =>
    refine ⟨{ kind := .bytes, bytes := List.replicate length.toNat 0 }, ?_⟩
    intro block hreads _ address db haddress
    rw [TypeInfo.reads_bytes hbyte] at hreads
    rw [writeTypedImpl_bytes hcounted hbyte (.inl rfl), TypeInfo.extent_bytes hbyte, hreads.right]
    constructor
    . intro _
      simp [byteArrayContent]
    . omega
  | harray levels element length hcounted hbyte ih =>
    rw [TypeInfo.writable_array, hbyte] at h
    rcases h with ⟨_, hbyte' | ⟨⟨size, hsize⟩, helement⟩⟩
    . cases hbyte'
    . rcases ih element helement with ⟨v, hv⟩
      refine ⟨{ kind := .array, elements := List.replicate length.toNat v }, ?_⟩
      intro block hreads hpos address db haddress
      rw [TypeInfo.reads_array hbyte] at hreads
      rcases TypeInfo.extent_checked hsize with ⟨hextent, hsizepos⟩
      rw [TypeInfo.extent_array hsize] at hpos ⊢
      have hv := hv block hreads.right.right (by omega)
      rw [hextent] at hv
      have hblock := hreads.right.right.block_le (by omega)
      rw [hextent] at hblock
      have hfits (a : Nat) (db : Database) (hle : a + size ≤ badAddress + block)
          : (writeTypedImpl casts levels a element v db).fst = ok := by
        apply (hv a db (by omega)).left hle
      rw [writeTypedImpl_elements hcounted rfl (List.length_replicate ..) hsize]
      constructor
      . intro hle
        apply writeElements_replicate_ok hblock hfits
        rw [Nat.zero_add]
        exact hle
      . intro hgt
        cases hlength : length.toNat with
        | zero =>
          rw [hlength] at hpos
          cases hpos
        | succ count =>
          rw [hlength] at hgt
          apply writeElements_replicate (fun a db ha hgt => (hv a db ha).right hgt) hfits
          rw [Nat.zero_add]
          exact hgt

end Write

end Data
end Idax
