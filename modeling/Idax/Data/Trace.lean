import Idax.Data.Lemmas.Typed

/-!
`read_typed` and `write_typed` with the arithmetic of 64-bit addresses and with a record of the array
elements that they go to. Without the record they are the functions as given before: where an element
address is computed at all, it does not wrap around.
-/

namespace Idax
namespace Data

structure Access where
  base : Nat
  index : Nat
  size : Nat
  address : Nat
  deriving DecidableEq, Repr

namespace Access

def Exact (access : Access) : Prop :=
  access.address = access.base + access.index * access.size

def stop (access : Access) : Nat :=
  access.address + access.size

end Access

def elementAddress64 (message : String) (address elementSize i : Nat) : Result Nat :=
  if i ≠ 0 ∧ elementSize > badAddress / i then
    .error (.validation message)
  else
    let offset := elementSize * i % 2 ^ 64
    if address > badAddress - offset then
      .error (.validation message)
    else
      .ok ((address + offset) % 2 ^ 64)

def readElementsTrace (read : Nat → Result TypedValue × List Access) (address elementSize : Nat)
    : (count i : Nat) → Result (List TypedValue) × List Access
  | 0, _ => (.ok [], [])
  | count + 1, i =>
    match elementAddress64 "Typed array read address overflow" address elementSize i with
    | .error e => (.error e, [])
    | .ok elementAddress =>
      let access : Access := { base := address, index := i, size := elementSize, address := elementAddress }
      match read elementAddress with
      | (.error e, accesses) => (.error e, access :: accesses)
      | (.ok value, accesses) =>
        let ⟨values, rest⟩ := readElementsTrace read address elementSize count (i + 1)
        (values.map (value :: ·), access :: accesses ++ rest)

def writeElementsTrace (write : Nat → TypedValue → Database → (Status × Database) × List Access)
    (address elementSize : Nat)
    : (i : Nat) → List TypedValue → Database → (Status × Database) × List Access
  | _, [], db => ((ok, db), [])
  | i, value :: values, db =>
    match elementAddress64 "Typed array write address overflow" address elementSize i with
    | .error e => ((.error e, db), [])
    | .ok elementAddress =>
      let access : Access := { base := address, index := i, size := elementSize, address := elementAddress }
      match write elementAddress value db with
      | ((.ok _, db), accesses) =>
        let ⟨result, rest⟩ := writeElementsTrace write address elementSize (i + 1) values db
        (result, access :: accesses ++ rest)
      | ((.error e, db), accesses) => ((.error e, db), access :: accesses)

def wholeArray (address length : Nat) : Access :=
  { base := address, index := 0, size := length, address }

variable (casts : FloatCasts)

def readTypedTrace (db : Database)
    : (levels : Nat) → (address : Nat) → TypeInfo → Result TypedValue × List Access
  | 0, _, _ => (.error (.validation "Maximum typed-value recursion depth exceeded"), [])
  | levels + 1, address, typeInfo =>
    match resolveIfTypedef typeInfo with
    | .error e => (.error e, [])
    | .ok effectiveType =>
      if effectiveType.isArray then
        match effectiveType.arrayElementType, effectiveType.arrayLength with
        | .error e, _ => (.error e, [])
        | _, .error e => (.error e, [])
        | .ok elementType, .ok length =>
          if isByteInteger elementType then
            ((db.readBytes address length).map byteArrayValue, [wholeArray address length])
          else
            match checkedTypeSize elementType with
            | .error e => (.error e, [])
            | .ok elementSize =>
              let ⟨elements, accesses⟩ := readElementsTrace
                (fun a => readTypedTrace db levels a elementType) address elementSize length 0
              (elements.map fun elements => { kind := .array, elements }, accesses)
      else
        ((checkedTypeSize effectiveType).bind (readScalar casts db address effectiveType), [])

def writeTypedTrace
    : (levels : Nat) → (address : Nat) → TypeInfo → TypedValue → Database
        → (Status × Database) × List Access
  | 0, _, _, _, db => ((.error (.validation "Maximum typed-value recursion depth exceeded"), db), [])
  | levels + 1, address, typeInfo, value, db =>
    match resolveIfTypedef typeInfo with
    | .error e => ((.error e, db), [])
    | .ok effectiveType =>
      if effectiveType.isArray then
        match effectiveType.arrayElementType, effectiveType.arrayLength with
        | .error e, _ => ((.error e, db), [])
        | _, .error e => ((.error e, db), [])
        | .ok elementType, .ok length =>
          if isByteInteger elementType && (value.kind = .bytes || value.kind = .string) then
            match byteArrayContent value length with
            | .error e => ((.error e, db), [])
            | .ok raw => (db.writeBytes address raw, [wholeArray address length])
          else if value.kind ≠ .array then
            ((.error (.validation "Typed array write requires array/bytes/string value"), db), [])
          else if value.elements.length ≠ length then
            ((.error (.validation "Array element count mismatch"
              (toString value.elements.length ++ " != " ++ toString length)), db), [])
          else
            match checkedTypeSize elementType with
            | .error e => ((.error e, db), [])
            | .ok elementSize =>
              writeElementsTrace (fun a v db => writeTypedTrace levels a elementType v db) address
                elementSize 0 value.elements db
      else
        match checkedTypeSize effectiveType with
        | .error e => ((.error e, db), [])
        | .ok typeSize => (writeScalar casts address effectiveType typeSize value db, [])

section Erase

theorem elementAddress64_eq (message : String) (address elementSize i : Nat)
    : elementAddress64 message address elementSize i = elementAddress message address elementSize i := by
  unfold elementAddress64 elementAddress
  split
  . rfl
  . next hproduct =>
    have hoffset : elementSize * i ≤ badAddress := by
      by_cases hi : i = 0
      . rw [hi]
        apply Nat.zero_le
      . have hle : elementSize ≤ badAddress / i := by
          by_contra hlt
          apply hproduct ⟨hi, by omega⟩
        apply (Nat.le_div_iff_mul_le (by omega)).mp hle
    have hwrap : elementSize * i % 2 ^ 64 = elementSize * i := by
      apply Nat.mod_eq_of_lt
      unfold badAddress at hoffset
      omega
    rw [hwrap]
    dsimp only
    split
    . rfl
    . next haddress =>
      apply congrArg Except.ok
      apply Nat.mod_eq_of_lt
      unfold badAddress at hoffset haddress
      omega

theorem readElementsTrace_fst {read : Nat → Result TypedValue}
    {readTrace : Nat → Result TypedValue × List Access} (hread : ∀ a, (readTrace a).fst = read a)
    (address elementSize count i : Nat)
    : (readElementsTrace readTrace address elementSize count i).fst
        = readElements read address elementSize count i := by
  induction count generalizing i with
  | zero => rfl
  | succ count ih =>
    rw [readElementsTrace, readElements, elementAddress64_eq]
    cases elementAddress "Typed array read address overflow" address elementSize i with
    | error e => rfl
    | ok a =>
      rw [ok_bind, ← hread a]
      dsimp only
      rcases readTrace a with ⟨result, accesses⟩
      cases result with
      | error e => rfl
      | ok value =>
        rw [ok_bind, ← ih]
        rfl

theorem writeElementsTrace_fst {write : Nat → TypedValue → Database → Status × Database}
    {writeTrace : Nat → TypedValue → Database → (Status × Database) × List Access}
    (hwrite : ∀ a v db, (writeTrace a v db).fst = write a v db) (address elementSize i : Nat)
    (values : List TypedValue) (db : Database)
    : (writeElementsTrace writeTrace address elementSize i values db).fst
        = writeElements write address elementSize i values db := by
  induction values generalizing i db with
  | nil => rfl
  | cons value values ih =>
    rw [writeElementsTrace, writeElements, elementAddress64_eq]
    cases elementAddress "Typed array write address overflow" address elementSize i with
    | error e => rfl
    | ok a =>
      dsimp only
      rw [← hwrite a value db]
      rcases writeTrace a value db with ⟨⟨status, db'⟩, accesses⟩
      cases status with
      | error e => rfl
      | ok u => apply ih

variable {casts}

theorem readTypedTrace_fst (db : Database) (levels address : Nat) (ti : TypeInfo)
    : (readTypedTrace casts db levels address ti).fst = readTypedImpl casts db levels address ti := by
  induction levels generalizing address ti with
  | zero => rfl
  | succ levels ih =>
    rw [readTypedTrace, readTypedImpl]
    cases resolveIfTypedef ti with
    | error e => rfl
    | ok effectiveType =>
      rw [ok_bind]
      dsimp only
      split
      . cases effectiveType.arrayElementType with
        | error e => rfl
        | ok elementType =>
          cases effectiveType.arrayLength with
          | error e => rfl
          | ok length =>
            simp only [ok_bind]
            split
            . rfl
            . cases checkedTypeSize elementType with
              | error e => rfl
              | ok elementSize =>
                rw [ok_bind, ← readElementsTrace_fst (fun a => ih a elementType)]
                rfl
      . rfl

theorem writeTypedTrace_fst (levels address : Nat) (ti : TypeInfo) (value : TypedValue)
    (db : Database)
    : (writeTypedTrace casts levels address ti value db).fst
        = writeTypedImpl casts levels address ti value db := by
  induction levels generalizing address ti value db with
  | zero => rfl
  | succ levels ih =>
    rw [writeTypedTrace, writeTypedImpl]
    cases resolveIfTypedef ti with
    | error e => rfl
    | ok effectiveType =>
      dsimp only
      split
      . cases effectiveType.arrayElementType with
        | error e => rfl
        | ok elementType =>
          cases effectiveType.arrayLength with
          | error e => rfl
          | ok length =>
            dsimp only
            split
            . cases byteArrayContent value length <;> rfl
            . split
              . rfl
              . split
                . rfl
                . cases checkedTypeSize elementType with
                  | error e => rfl
                  | ok elementSize =>
                    apply writeElementsTrace_fst
                    intro a v db
                    apply ih
      . cases checkedTypeSize effectiveType <;> rfl

end Erase

end Data
end Idax
