import Idax.Data.Lemmas.Outcomes
import Idax.Data.RoundTrip
import Idax.Data.Trace

/-!
This module contains the question whether typed reads and writes stay in the address space. Only the
start of an array element is compared with `BadAddress`, so its end can be behind it.
-/

namespace Idax
namespace Data

variable {casts : FloatCasts}

section Accesses

def Access.Within (stop : Nat) (access : Access) : Prop :=
  access.Exact ∧ access.stop ≤ stop

theorem Access.Within.mono {stop stop' : Nat} {access : Access} (h : access.Within stop)
    (hle : stop ≤ stop') : access.Within stop' :=
  ⟨h.left, Nat.le_trans h.right hle⟩

theorem wholeArray_within (address length : Nat)
    : (wholeArray address length).Within (address + length) := by
  constructor
  . simp [Access.Exact, wholeArray]
  . simp [Access.stop, wholeArray]

theorem element_within {address size i x count : Nat} {message : String} (hi : i < count)
    (h : elementAddress64 message address size i = .ok x)
    : Access.Within (address + size * count) ⟨address, i, size, x⟩ ∧ x + size ≤ address + size * count := by
  have hlast : size * (i + 1) ≤ size * count := Nat.mul_le_mul_left size hi
  have hnext : size * (i + 1) = size * i + size := Nat.mul_succ size i
  rw [elementAddress64_eq, elementAddress_eq] at h
  split at h
  . cases h
    simp only [Access.Within, Access.Exact, Access.stop]
    rw [Nat.mul_comm i size]
    omega
  . cases h

theorem readElementsTrace_within {read : Nat → Result TypedValue × List Access} {size : Nat}
    (hread : ∀ a, ∀ access ∈ (read a).snd, access.Within (a + size)) (address count i : Nat)
    : ∀ access ∈ (readElementsTrace read address size count i).snd,
        access.Within (address + size * (i + count)) := by
  induction count generalizing i with
  | zero =>
    intro access hmem
    cases hmem
  | succ count ih =>
    rw [readElementsTrace]
    cases haddress : elementAddress64 "Typed array read address overflow" address size i with
    | error e =>
      intro access hmem
      cases hmem
    | ok x =>
      rcases element_within (show i < i + (count + 1) by omega) haddress with ⟨hhead, hend⟩
      have hinner := hread x
      have hrest := ih (i + 1)
      rw [show i + 1 + count = i + (count + 1) by omega] at hrest
      dsimp only
      rcases hresult : read x with ⟨result, accesses⟩
      rw [hresult] at hinner
      cases result with
      | error e =>
        intro access hmem
        rcases List.mem_cons.mp hmem with heq | hmem
        . rw [heq]
          exact hhead
        . exact (hinner access hmem).mono hend
      | ok value =>
        intro access hmem
        rcases List.mem_cons.mp hmem with heq | hmem
        . rw [heq]
          exact hhead
        . rcases List.mem_append.mp hmem with hmem | hmem
          . exact (hinner access hmem).mono hend
          . exact hrest access hmem

theorem writeElementsTrace_within
    {write : Nat → TypedValue → Database → (Status × Database) × List Access} {size : Nat}
    (hwrite : ∀ a v db, ∀ access ∈ (write a v db).snd, access.Within (a + size))
    (address i : Nat) (vs : List TypedValue) (db : Database)
    : ∀ access ∈ (writeElementsTrace write address size i vs db).snd,
        access.Within (address + size * (i + vs.length)) := by
  induction vs generalizing i db with
  | nil =>
    intro access hmem
    cases hmem
  | cons v vs ih =>
    rw [writeElementsTrace]
    cases haddress : elementAddress64 "Typed array write address overflow" address size i with
    | error e =>
      intro access hmem
      cases hmem
    | ok x =>
      have hlength : (v :: vs).length = vs.length + 1 := List.length_cons
      rcases element_within (show i < i + (v :: vs).length by omega) haddress with ⟨hhead, hend⟩
      have hinner := hwrite x v db
      dsimp only
      rcases hresult : write x v db with ⟨⟨status, db'⟩, accesses⟩
      rw [hresult] at hinner
      have hrest := ih (i + 1) db'
      rw [show i + 1 + vs.length = i + (v :: vs).length by omega] at hrest
      cases status with
      | error e =>
        intro access hmem
        rcases List.mem_cons.mp hmem with heq | hmem
        . rw [heq]
          exact hhead
        . exact (hinner access hmem).mono hend
      | ok u =>
        intro access hmem
        rcases List.mem_cons.mp hmem with heq | hmem
        . rw [heq]
          exact hhead
        . rcases List.mem_append.mp hmem with hmem | hmem
          . exact (hinner access hmem).mono hend
          . exact hrest access hmem

theorem readTypedTrace_within (db : Database) (levels address : Nat) (ti : TypeInfo)
    : ∀ access ∈ (readTypedTrace casts db levels address ti).snd,
        access.Within (address + ti.extent) := by
  induction levels generalizing address ti with
  | zero =>
    intro access hmem
    cases hmem
  | succ levels ih =>
    rw [← TypeInfo.extent_realtype, readTypedTrace, ← resolveIfTypedef_realtype]
    have htypedef := ti.realtype_ne_typedef
    generalize ti.realtype = t at htypedef
    cases t with
    | typedef target => exact absurd rfl (htypedef target)
    | array element length =>
      simp only [resolveIfTypedef_array, TypeInfo.isArray_array, ↓reduceIte,
        TypeInfo.arrayElementType_array]
      by_cases hcounted : TypeInfo.Counted length
      case neg =>
        rw [TypeInfo.arrayLength_of_not_counted hcounted]
        intro access hmem
        cases hmem
      rw [TypeInfo.arrayLength_of_counted hcounted]
      dsimp only
      split
      . next hbyte =>
        intro access hmem
        rw [List.mem_singleton.mp hmem, TypeInfo.extent_bytes hbyte]
        apply wholeArray_within
      . cases hsize : checkedTypeSize element with
        | error e =>
          intro access hmem
          cases hmem
        | ok size =>
          have hone (a : Nat) : ∀ access ∈ (readTypedTrace casts db levels a element).snd,
              access.Within (a + size) := by
            rw [← (TypeInfo.extent_checked hsize).left]
            apply ih a element
          have hall := readElementsTrace_within hone address length.toNat 0
          rw [TypeInfo.extent_array hsize]
          rw [Nat.zero_add] at hall
          exact hall
    | _ =>
      intro access hmem
      cases hmem

theorem scalarTrace_eq_nil (address : Nat) (t : TypeInfo) (value : TypedValue) (db : Database)
    : (match checkedTypeSize t with
        | .error e => (((.error e, db), []) : (Status × Database) × List Access)
        | .ok typeSize => (writeScalar casts address t typeSize value db, [])).snd = [] := by
  cases checkedTypeSize t <;> rfl

theorem writeTypedTrace_scalar {levels : Nat} {ti : TypeInfo} (hscalar : ti.isArray = false)
    (address : Nat) (value : TypedValue) (db : Database)
    : (writeTypedTrace casts levels address ti value db).snd = [] := by
  cases levels with
  | zero => rfl
  | succ levels =>
    rw [writeTypedTrace, ← resolveIfTypedef_realtype]
    rw [TypeInfo.isArray] at hscalar
    have htypedef := ti.realtype_ne_typedef
    generalize ti.realtype = t at hscalar htypedef
    have hnil := @scalarTrace_eq_nil casts address t value db
    cases t with
    | typedef target => exact absurd rfl (htypedef target)
    | array element length => cases hscalar
    | unresolved name => rfl
    | _ => exact hnil

theorem writeTypedTrace_within (levels address : Nat) (ti : TypeInfo) (value : TypedValue)
    (db : Database)
    : ∀ access ∈ (writeTypedTrace casts levels address ti value db).snd,
        access.Within (address + ti.extent) := by
  induction levels generalizing address ti value db with
  | zero =>
    intro access hmem
    cases hmem
  | succ levels ih =>
    cases harray : ti.isArray with
    | false =>
      rw [writeTypedTrace_scalar harray]
      intro access hmem
      cases hmem
    | true =>
      rw [← TypeInfo.extent_realtype, writeTypedTrace, ← resolveIfTypedef_realtype]
      rw [TypeInfo.isArray] at harray
      generalize ti.realtype = t at harray
      cases t with
      | array element length =>
        simp only [resolveIfTypedef_array, TypeInfo.isArray_array, ↓reduceIte,
          TypeInfo.arrayElementType_array]
        by_cases hcounted : TypeInfo.Counted length
        case neg =>
          rw [TypeInfo.arrayLength_of_not_counted hcounted]
          intro access hmem
          cases hmem
        rw [TypeInfo.arrayLength_of_counted hcounted]
        dsimp only
        split
        . next hbytes =>
          rw [Bool.and_eq_true] at hbytes
          cases byteArrayContent value length.toNat with
          | error e =>
            intro access hmem
            cases hmem
          | ok raw =>
            intro access hmem
            rw [List.mem_singleton.mp hmem, TypeInfo.extent_bytes hbytes.left]
            apply wholeArray_within
        . split
          . intro access hmem
            cases hmem
          . split
            . intro access hmem
              cases hmem
            . next hlength =>
              cases hsize : checkedTypeSize element with
              | error e =>
                intro access hmem
                cases hmem
              | ok size =>
                have hone (a : Nat) (v : TypedValue) (db : Database)
                    : ∀ access ∈ (writeTypedTrace casts levels a element v db).snd,
                        access.Within (a + size) := by
                  rw [← (TypeInfo.extent_checked hsize).left]
                  apply ih a element v db
                have hall := writeElementsTrace_within hone address 0 value.elements db
                rw [TypeInfo.extent_array hsize, ← Classical.not_not.mp hlength]
                rw [Nat.zero_add] at hall
                exact hall
      | _ => cases harray

theorem readElementsTrace_last {read : Nat → Result TypedValue × List Access}
    {size address count i : Nat} {vs : List TypedValue}
    (h : (readElementsTrace read address size (count + 1) i).fst = .ok vs)
    : ∃ access ∈ (readElementsTrace read address size (count + 1) i).snd,
        access.stop = address + size * (i + (count + 1)) := by
  induction count generalizing i vs with
  | zero =>
    rw [readElementsTrace] at h ⊢
    cases haddress : elementAddress64 "Typed array read address overflow" address size i with
    | error e =>
      rw [haddress] at h
      cases h
    | ok x =>
      rw [haddress] at h
      rw [elementAddress64_eq, elementAddress_eq] at haddress
      dsimp only at h ⊢
      rcases hresult : read x with ⟨result, accesses⟩
      rw [hresult] at h
      cases result with
      | error e => cases h
      | ok value =>
        refine ⟨_, List.mem_cons_self, ?_⟩
        split at haddress
        . cases haddress
          simp only [Access.stop, Nat.zero_add, Nat.mul_succ]
          omega
        . cases haddress
  | succ count ih =>
    rw [readElementsTrace] at h ⊢
    cases haddress : elementAddress64 "Typed array read address overflow" address size i with
    | error e =>
      rw [haddress] at h
      cases h
    | ok x =>
      rw [haddress] at h
      dsimp only at h ⊢
      rcases hresult : read x with ⟨result, accesses⟩
      rw [hresult] at h
      cases result with
      | error e => cases h
      | ok value =>
        dsimp only at h
        cases hrest : (readElementsTrace read address size (count + 1) (i + 1)).fst with
        | error e =>
          rw [hrest] at h
          cases h
        | ok values =>
          rcases ih hrest with ⟨access, hmem, hstop⟩
          refine ⟨access, ?_, ?_⟩
          . exact List.mem_cons_of_mem _ (List.mem_append_right _ hmem)
          . rw [hstop, show i + 1 + (count + 1) = i + (count + 1 + 1) by omega]

theorem readTypedTrace_last {db : Database} {levels address : Nat} {ti : TypeInfo} {v : TypedValue}
    (harray : ti.isArray = true) (hpos : 0 < ti.extent)
    (h : (readTypedTrace casts db levels address ti).fst = .ok v)
    : ∃ access ∈ (readTypedTrace casts db levels address ti).snd,
        access.stop = address + ti.extent := by
  cases levels with
  | zero => cases h
  | succ levels =>
    rw [← TypeInfo.extent_realtype] at hpos ⊢
    rw [readTypedTrace, ← resolveIfTypedef_realtype] at h ⊢
    rw [TypeInfo.isArray] at harray
    generalize ti.realtype = t at harray hpos h ⊢
    cases t with
    | array element length =>
      simp only [resolveIfTypedef_array, TypeInfo.isArray_array, ↓reduceIte,
        TypeInfo.arrayElementType_array] at h ⊢
      by_cases hcounted : TypeInfo.Counted length
      case neg =>
        rw [TypeInfo.arrayLength_of_not_counted hcounted] at h
        cases h
      rw [TypeInfo.arrayLength_of_counted hcounted] at h ⊢
      dsimp only at h ⊢
      split
      . next hbyte =>
        refine ⟨_, List.mem_singleton_self _, ?_⟩
        rw [TypeInfo.extent_bytes hbyte]
        rfl
      . next hbyte =>
        rw [if_neg hbyte] at h
        cases hsize : checkedTypeSize element with
        | error e =>
          rw [hsize] at h
          cases h
        | ok size =>
          rw [hsize] at h
          rw [TypeInfo.extent_array hsize] at hpos ⊢
          cases hlength : length.toNat with
          | zero =>
            rw [hlength] at hpos
            cases hpos
          | succ count =>
            rw [hlength] at h
            dsimp only at h
            cases helements : (readElementsTrace (fun a => readTypedTrace casts db levels a element)
              address size (count + 1) 0).fst with
            | error e =>
              rw [helements] at h
              cases h
            | ok vs =>
              rcases readElementsTrace_last helements with ⟨access, hmem, hstop⟩
              rw [Nat.zero_add] at hstop
              exact ⟨access, hmem, hstop⟩
    | _ => cases harray

end Accesses

section Scalar

variable {db : Database} {levels address : Nat} {ti : TypeInfo}

theorem readTypedImpl_scalar_outcome (hscalar : ti.isArray = false)
    : readTypedImpl casts db levels address ti ≠ .error readOverflow
        ∧ (readTypedTrace casts db levels address ti).snd = [] := by
  cases levels with
  | zero =>
    rw [readTypedImpl]
    refine ⟨?_, rfl⟩
    simp [readOverflow, Error.validation]
  | succ levels =>
    rw [← readTypedImpl_realtype, readTypedTrace, ← resolveIfTypedef_realtype]
    rw [TypeInfo.isArray] at hscalar
    have htypedef := ti.realtype_ne_typedef
    generalize ti.realtype = t at hscalar htypedef ⊢
    have hne (hti : t.IsScalar) : readTypedImpl casts db (levels + 1) address t ≠ .error readOverflow := by
      rw [readTypedImpl_scalar hti]
      cases hsize : checkedTypeSize t with
      | error e =>
        intro he
        cases he
        exact (checkedTypeSize_error hsize).left rfl
      | ok size => apply readScalar_ne_overflow
    cases t with
    | typedef target => exact absurd rfl (htypedef target)
    | array element length => cases hscalar
    | unresolved name =>
      refine ⟨?_, rfl⟩
      intro he
      cases he
    | _ => exact ⟨hne trivial, rfl⟩

theorem writeTypedImpl_scalar_outcome (hscalar : ti.isArray = false) (value : TypedValue)
    : (writeTypedImpl casts levels address ti value db).fst ≠ .error writeOverflow
        ∧ (writeTypedTrace casts levels address ti value db).snd = [] := by
  cases levels with
  | zero =>
    rw [writeTypedImpl]
    refine ⟨?_, rfl⟩
    simp [writeOverflow, Error.validation]
  | succ levels =>
    refine ⟨?_, writeTypedTrace_scalar hscalar address value db⟩
    rw [← writeTypedImpl_realtype]
    rw [TypeInfo.isArray] at hscalar
    have htypedef := ti.realtype_ne_typedef
    generalize ti.realtype = t at hscalar htypedef
    have hne (hti : t.IsScalar)
        : (writeTypedImpl casts (levels + 1) address t value db).fst ≠ .error writeOverflow := by
      rw [writeTypedImpl_scalar hti]
      cases hsize : checkedTypeSize t with
      | error e =>
        intro he
        cases he
        exact (checkedTypeSize_error hsize).right rfl
      | ok size => exact (writeScalar_outcome address t size value).right
    cases t with
    | typedef target => exact absurd rfl (htypedef target)
    | array element length => cases hscalar
    | unresolved name =>
      intro he
      cases he
    | _ => exact hne trivial

theorem readTypedImpl_empty (hempty : ti.extent = 0)
    : readTypedImpl casts db levels address ti ≠ .error readOverflow := by
  cases harray : ti.isArray with
  | false => exact (readTypedImpl_scalar_outcome harray).left
  | true =>
    cases levels with
    | zero =>
      rw [readTypedImpl]
      simp [readOverflow, Error.validation]
    | succ levels =>
      rw [← TypeInfo.extent_realtype] at hempty
      rw [← readTypedImpl_realtype]
      rw [TypeInfo.isArray] at harray
      generalize ti.realtype = t at hempty harray ⊢
      cases t with
      | array element length =>
        by_cases hcounted : TypeInfo.Counted length
        case neg =>
          rw [readTypedImpl_uncounted hcounted]
          simp [TypeInfo.uncounted, readOverflow, Error.sdk, Error.validation]
        cases hbyte : isByteInteger element with
        | true =>
          simp only [readTypedImpl, resolveIfTypedef_array, ok_bind, TypeInfo.isArray_array, ↓reduceIte,
            TypeInfo.arrayElementType_array, TypeInfo.arrayLength_of_counted hcounted, hbyte]
          apply bind_ok_ne_error (readBytes_ne_overflow address length.toNat)
        | false =>
          rw [readTypedImpl_array hcounted hbyte]
          cases hsize : checkedTypeSize element with
          | error e =>
            intro he
            cases he
            exact (checkedTypeSize_error hsize).left rfl
          | ok size =>
            rw [TypeInfo.extent_array hsize, Nat.mul_eq_zero] at hempty
            have hpos := (TypeInfo.extent_checked hsize).right
            rw [hempty.resolve_left (by omega)]
            intro he
            cases he
      | _ => cases harray

end Scalar

section Claim

variable (casts)

def readTypedAccesses (db : Database) (address : Nat) (ti : TypeInfo) : List Access :=
  (readTypedTrace casts db (kMaxTypedDepth + 1) address ti).snd

def writeTypedAccesses (db : Database) (address : Nat) (ti : TypeInfo) (value : TypedValue)
    : List Access :=
  (writeTypedTrace casts (kMaxTypedDepth + 1) address ti value db).snd

/--
Reading and writing compute exact addresses and refuse the same arrays, and whatever they do not
refuse lies below `BadAddress`.
-/
structure AddressingExact (address : Nat) (ti : TypeInfo) : Prop where
  read_exact : ∀ db, ∀ access ∈ readTypedAccesses casts db address ti, access.Exact
  write_exact : ∀ value db, ∀ access ∈ writeTypedAccesses casts db address ti value, access.Exact
  overflow_same : (∃ db, readTyped casts db address ti = .error readOverflow)
    ↔ ∃ value db, (writeTyped casts db address ti value).fst = .error writeOverflow
  not_read_overflow : ∀ value db db', (writeTyped casts db address ti value).fst = ok →
    readTyped casts db' address ti ≠ .error readOverflow
  not_write_overflow : ∀ value v db db', readTyped casts db' address ti = .ok v →
    (writeTyped casts db address ti value).fst ≠ .error writeOverflow
  read_below : ∀ db v, readTyped casts db address ti = .ok v →
    ∀ access ∈ readTypedAccesses casts db address ti, access.stop ≤ badAddress
  write_below : ∀ value db, (writeTyped casts db address ti value).fst = ok →
    ∀ access ∈ writeTypedAccesses casts db address ti value, access.stop ≤ badAddress

/--
The last block of an array does not straddle `BadAddress`: the array ends below it, or the block
begins behind it and there is a value for the write to refuse.
-/
def EndsClear (address : Nat) (ti : TypeInfo) : Prop :=
  ti.isArray = true → ∀ block, ti.Reads (kMaxTypedDepth + 1) block →
    address + ti.extent ≤ badAddress
      ∨ (ti.Writable (kMaxTypedDepth + 1) ∧ address + ti.extent > badAddress + block)

variable {casts}

theorem addressingExact_of_scalar {address : Nat} {ti : TypeInfo} (hscalar : ti.isArray = false)
    : AddressingExact casts address ti := by
  have hread (db : Database) :=
    @readTypedImpl_scalar_outcome casts db (kMaxTypedDepth + 1) address ti hscalar
  have hwrite (value : TypedValue) (db : Database) :=
    @writeTypedImpl_scalar_outcome casts db (kMaxTypedDepth + 1) address ti hscalar value
  constructor
  case read_exact =>
    intro db access hmem
    rw [readTypedAccesses, (hread db).right] at hmem
    cases hmem
  case write_exact =>
    intro value db access hmem
    rw [writeTypedAccesses, (hwrite value db).right] at hmem
    cases hmem
  case overflow_same =>
    constructor
    . intro ⟨db, h⟩
      exact absurd h (hread db).left
    . intro ⟨value, db, h⟩
      exact absurd h (hwrite value db).left
  case not_read_overflow =>
    intro _ _ db _
    exact (hread db).left
  case not_write_overflow =>
    intro value _ db _ _
    exact (hwrite value db).left
  case read_below =>
    intro db v _ access hmem
    rw [readTypedAccesses, (hread db).right] at hmem
    cases hmem
  case write_below =>
    intro value db _ access hmem
    rw [writeTypedAccesses, (hwrite value db).right] at hmem
    cases hmem

theorem addressingExact_of_endsClear {address : Nat} {ti : TypeInfo} (haddress : address ≤ badAddress)
    (harray : ti.isArray = true) (h : EndsClear address ti) : AddressingExact casts address ti := by
  have hclear := h harray
  have hreadOk {db : Database} {v : TypedValue} (hv : readTyped casts db address ti = .ok v)
      : address + ti.extent ≤ badAddress := by
    by_cases hpos : 0 < ti.extent
    . rcases reads_of_readTypedImpl hpos haddress (.inl ⟨v, hv⟩) with ⟨block, hreads⟩
      have hfits := (readTypedImpl_reads hreads hpos haddress).fits_of_ok v hv
      rcases hclear block hreads with hle | hgt <;> omega
    . omega
  have hreadOver {db : Database} (he : readTyped casts db address ti = .error readOverflow)
      : 0 < ti.extent ∧ ∃ block, ti.Reads (kMaxTypedDepth + 1) block
          ∧ address + ti.extent > badAddress + block := by
    have hpos : 0 < ti.extent := by
      by_contra hzero
      exact readTypedImpl_empty (by omega) he
    rcases reads_of_readTypedImpl hpos haddress (.inr he) with ⟨block, hreads⟩
    have hnot := (readTypedImpl_reads hreads hpos haddress).not_fits_of_overflow he
    exact ⟨hpos, block, hreads, by omega⟩
  have hwriteOver {db : Database} {value : TypedValue}
      (he : (writeTyped casts db address ti value).fst = .error writeOverflow)
      : 0 < ti.extent ∧ address + ti.extent > badAddress ∧ ti.Writable (kMaxTypedDepth + 1) := by
    have hover := writeTypedImpl_overflow haddress he
    have hpos : 0 < ti.extent := by omega
    exact ⟨hpos, hover, writable_of_writeTypedImpl hpos haddress (.inr he)⟩
  constructor
  case read_exact =>
    intro db access hmem
    exact (readTypedTrace_within db _ address ti access hmem).left
  case write_exact =>
    intro value db access hmem
    exact (writeTypedTrace_within _ address ti value db access hmem).left
  case overflow_same =>
    constructor
    . intro ⟨db, he⟩
      rcases hreadOver he with ⟨hpos, block, hreads, hgt⟩
      rcases hclear block hreads with hle | ⟨hwritable, _⟩
      . omega
      . rcases @writeTypedImpl_of_writable casts _ ti hwritable with ⟨value, hvalue⟩
        exact ⟨value, db, (hvalue block hreads hpos address db haddress).right hgt⟩
    . intro ⟨value, db, he⟩
      rcases hwriteOver he with ⟨hpos, hover, hwritable⟩
      rcases hwritable.reads with ⟨block, hreads⟩
      refine ⟨zeroedDatabase, ?_⟩
      apply (readTypedImpl_reads hreads hpos haddress).overflow_of_not_fits
      . intro ea
        rfl
      . rcases hclear block hreads with hle | hgt <;> omega
  case not_read_overflow =>
    intro value db db' hok he
    rcases hreadOver he with ⟨hpos, block, hreads, hgt⟩
    have hfits := writeTypedImpl_ok hreads hpos haddress hok
    omega
  case not_write_overflow =>
    intro value v db db' hv he
    rcases hwriteOver he with ⟨_, hover, _⟩
    have hle := hreadOk hv
    omega
  case read_below =>
    intro db v hv access hmem
    have hwithin := readTypedTrace_within db _ address ti access hmem
    exact Nat.le_trans hwithin.right (hreadOk hv)
  case write_below =>
    intro value db hok access hmem
    have hwithin := writeTypedTrace_within _ address ti value db access hmem
    apply Nat.le_trans hwithin.right
    by_cases hpos : 0 < ti.extent
    . rcases (writable_of_writeTypedImpl hpos haddress (.inl hok)).reads with ⟨block, hreads⟩
      have hfits := writeTypedImpl_ok hreads hpos haddress hok
      rcases hclear block hreads with hle | hgt <;> omega
    . omega

theorem endsClear_of_addressingExact {address : Nat} {ti : TypeInfo} (haddress : address ≤ badAddress)
    (h : AddressingExact casts address ti) : EndsClear address ti := by
  intro harray block hreads
  by_contra hnot
  have hover : address + ti.extent > badAddress := by
    by_contra hle
    exact hnot (.inl (by omega))
  have hpos : 0 < ti.extent := by omega
  have hloaded : zeroedDatabase.FullyLoaded := fun _ => rfl
  have houtcome := @readTypedImpl_reads zeroedDatabase casts _ ti block hreads hpos address haddress
  by_cases hfits : address + ti.extent ≤ badAddress + block
  . rcases houtcome.ok_of_fits hloaded hfits with ⟨v, hv⟩
    have htrace := hv
    rw [← readTypedTrace_fst] at htrace
    rcases readTypedTrace_last harray hpos htrace with ⟨access, hmem, hstop⟩
    have hbelow := h.read_below zeroedDatabase v hv access hmem
    omega
  . have he := houtcome.overflow_of_not_fits hloaded hfits
    rcases h.overflow_same.mp ⟨zeroedDatabase, he⟩ with ⟨value, db, hwrite⟩
    have hwritable := writable_of_writeTypedImpl hpos haddress (.inr hwrite)
    exact hnot (.inr ⟨hwritable, by omega⟩)

/--
Typed reads and writes stay in the address space exactly when no block straddles its end.
-/
theorem addressingExact_iff {address : Nat} (haddress : address ≤ badAddress) (ti : TypeInfo)
    : AddressingExact casts address ti ↔ EndsClear address ti := by
  constructor
  . apply endsClear_of_addressingExact haddress
  . intro h
    cases harray : ti.isArray with
    | false => apply addressingExact_of_scalar harray
    | true => apply addressingExact_of_endsClear haddress harray h

def dwordPair : TypeInfo :=
  .array (.integer 4 false) 2

def dwordPairValue : TypedValue :=
  { kind := .array
    elements :=
      [ { kind := .unsignedInteger, unsignedValue := 1 }
      , { kind := .unsignedInteger, unsignedValue := 2 } ] }

theorem addressingExact_iff_dwordPair
    : AddressingExact keepCasts 0x1000 dwordPair ↔ EndsClear 0x1000 dwordPair := by
  apply addressingExact_iff
  decide

theorem not_addressingExact_dwordPair
    : (writeTyped keepCasts zeroedDatabase (badAddress - 7) dwordPair dwordPairValue).fst = ok
        ∧ (writeTypedAccesses keepCasts zeroedDatabase (badAddress - 7) dwordPair dwordPairValue).map
            Access.stop = [badAddress - 3, badAddress + 1]
        ∧ ¬AddressingExact keepCasts (badAddress - 7) dwordPair := by
  refine ⟨by rfl, by rfl, ?_⟩
  intro h
  have hbelow := h.write_below dwordPairValue zeroedDatabase (by rfl)
    ⟨badAddress - 7, 1, 4, badAddress - 3⟩ (by decide)
  revert hbelow
  decide

end Claim

end Data
end Idax
