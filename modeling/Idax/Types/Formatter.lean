import Mathlib.Algebra.Group.Nat.Defs
import Idax.Types.Tinfo

/-!
This module contains the C declaration renderer: the walk that decides which named types are
emitted and in which order, and the rendering of a struct or union, trimmed to the members at used
offsets.
-/

namespace Idax
namespace Types

structure UsedMemberOffsets where
  typeName : String
  byteOffsets : List Int
  deriving Repr

structure TypeRenderOptions where
  sizeComments : Bool := false
  trimUnreferenced : Bool := false
  usedOffsets : List UsedMemberOffsets := []
  deriving Repr

/--
The offsets recorded for each type name. Entries for one name are merged, as inserting a range into
a set does.
-/
def usedOffsetsMap (options : TypeRenderOptions) (name : String) : Option (List Int) :=
  let entries := options.usedOffsets.filter fun entry =>
    !entry.typeName.isEmpty && entry.typeName == name
  if entries.isEmpty then none else some (entries.flatMap (·.byteOffsets))

def lowerBound (offsets : List Int) (offset : Int) : Option Int :=
  (offsets.filter (offset ≤ ·)).min?

def castInt (value : Nat) : Int :=
  (value : Int).bmod (2 ^ 32)

structure OrderedType where
  name : String
  type : Tinfo
  deriving Repr

structure WalkState where
  out : List OrderedType := []
  emitted : List String := []
  onStack : List String := []
  deriving Repr

structure TypeDeclarationFormatter where
  til : Til
  options : TypeRenderOptions

namespace TypeDeclarationFormatter

variable (fmt : TypeDeclarationFormatter)

def accessed (udt : UdtTypeData) (name : String) : Option (List Int) :=
  if fmt.options.trimUnreferenced && !udt.isUnion then
    match usedOffsetsMap fmt.options name with
    | some offsets => if offsets.isEmpty then none else some offsets
    | none => none
  else
    none

def follows (accessed : Option (List Int)) (m : Udm) : Bool :=
  match accessed with
  | none => true
  | some accessed =>
    let offset := castInt (m.offset / 8)
    let size := castInt (m.size / 8)
    let size := if size = 0 then 1 else size
    match lowerBound accessed offset with
    | none => false
    | some lower => !decide (offset + size ≤ lower)

def walk (maxDepth : Int) : (fuel : Nat) → Tinfo → (depth : Int) → WalkState → Option WalkState
  | 0, _, _, _ => none
  | fuel + 1, ti, depth, s =>
    match ti with
    | .absent => some s
    | .ptr pointed => walk maxDepth fuel pointed depth s
    | .array element => walk maxDepth fuel element depth s
    | .func rettype args => do
      let s ← walk maxDepth fuel rettype depth s
      args.foldlM (fun s arg => walk maxDepth fuel arg depth s) s
    | .unnamed => some s
    | .named name =>
      if name.isEmpty then
        some s
      else if 0 ≤ maxDepth ∧ maxDepth < depth then
        some s
      else if name ∈ s.emitted ∨ name ∈ s.onStack then
        some s
      else do
        let s := { s with onStack := name :: s.onStack }
        let ⟨dropThis, s⟩ ←
          match fmt.til.udtDetails? (.named name) with
          | none => some (false, s)
          | some udt =>
            let accessed := fmt.accessed udt name
            -- Dropped before its members are looked at, and not marked as emitted.
            if fmt.options.trimUnreferenced && accessed.isNone && !udt.isUnion then
              some (true, s)
            else do
              let s ← udt.members.foldlM (fun s m =>
                if follows accessed m then walk maxDepth fuel m.type (depth + 1) s else some s) s
              some (false, s)
        let s :=
          if dropThis then
            s
          else
            { s with out := s.out ++ [⟨name, .named name⟩], emitted := s.emitted ++ [name] }
        -- A type is emitted after the types it was left for.
        some { s with onStack := s.onStack.erase name }

def orderNamed (fuel : Nat) (names : List String) (maxDepth : Int) : Option (List OrderedType) := do
  let s ← names.foldlM (fun s name =>
    match fmt.til.tinfoFromName name with
    | none => some s
    | some ti => fmt.walk maxDepth fuel ti 0 s) {}
  some s.out

def orderOrdinals (fuel : Nat) (ordinals : List Nat) : Option (List OrderedType) := do
  let s ← ordinals.foldlM (fun s ordinal =>
    match fmt.til.tinfoFromOrdinal ordinal with
    | none => some s
    | some ti => fmt.walk (-1) fuel ti 0 s) {}
  some s.out

inductive Roots where
  | names (names : List String)
  | ordinals (ordinals : List Nat)
  deriving Repr

def order (fuel : Nat) : Roots → Option (List OrderedType)
  | .names names => fmt.orderNamed fuel names (-1)
  | .ordinals ordinals => fmt.orderOrdinals fuel ordinals

inductive Request where
  | named (names : List String) (maxDepth : Int)
  | ordinals (ordinals : List Nat)
  deriving Repr

structure Line where
  member : Option Nat
  byteOffset : Nat
  byteSize : Nat := 0
  isBitfield : Bool := false
  bitOffset : Int := 0
  bitSize : Int := 0
  emitComment : Bool := false
  deriving DecidableEq, Repr

inductive Emission where
  | empty
  | printed (text : String)
  | blob (isUnion : Bool) (name : String) (totalSize : Nat)
  | udt (isUnion : Bool) (name : String) (totalSize : Option Nat) (trimmed : Option (Nat × Nat))
    (lines : List Line)
  deriving DecidableEq, Repr

def Emission.isEmpty : Emission → Bool
  | .empty => true
  | .printed text => text.isEmpty
  | _ => false

def Emission.members : Emission → List Nat
  | .udt _ _ _ _ lines => lines.filterMap (·.member)
  | _ => []

def keeps (accessed : List Int) (m : Udm) : Bool :=
  let offset := castInt (m.offset / 8)
  let size := castInt (m.size / 8)
  let size := if size = 0 then 1 else size
  match lowerBound accessed offset with
  | none => false
  | some lower => decide (lower < offset + size)

def keepIndices (accessed : Option (List Int)) (udt : UdtTypeData) : List (Nat × Udm) :=
  match accessed with
  | none => udt.members.zipIdx.map fun ⟨m, i⟩ => (i, m)
  | some accessed => (udt.members.zipIdx.map fun ⟨m, i⟩ => (i, m)).filter fun ⟨_, m⟩ => keeps accessed m

def memberLine (index : Nat) (m : Udm) : Line :=
  if m.isBitfield then
    { member := some index
      byteOffset := m.offset / 8
      isBitfield := true
      bitOffset := castInt (m.offset % 8)
      bitSize := castInt m.size
      emitComment := fmt.options.sizeComments }
  else
    { member := some index
      byteOffset := m.offset / 8
      byteSize := m.size / 8
      emitComment := fmt.options.sizeComments }

def paddingLines (src dst : Nat) : List Line :=
  if dst ≤ src then
    []
  else
    [{ member := none, byteOffset := src, byteSize := dst - src, emitComment := true }]

def memberEnd (m : Udm) : Nat :=
  if m.isBitfield then (m.offset + m.size + 7) / 8 else m.offset / 8 + m.size / 8

/--
The lines of a trimmed struct: each kept member, with padding from the end of what was emitted so far
(`cursor`) to its start, and padding to the end of the struct.
-/
def trimmedLines (totalSize : Nat) : (cursor : Nat) → List (Nat × Udm) → List Line
  | cursor, [] => if cursor < totalSize then paddingLines cursor totalSize else []
  | cursor, (index, m) :: kept =>
    let padding := if cursor < m.offset / 8 then paddingLines cursor (m.offset / 8) else []
    padding ++ fmt.memberLine index m :: trimmedLines totalSize (max cursor (memberEnd m)) kept

def emitTypedefOrOther (ti : Tinfo) (name : String) : Emission :=
  .printed (fmt.til.printTypeDecl ti name)

def emitUdt (ti : Tinfo) (name : String) : Emission :=
  match fmt.til.udtDetails? ti with
  | none => fmt.emitTypedefOrOther ti name
  | some udt =>
    let trimActive := fmt.options.trimUnreferenced && !udt.isUnion
    let accessed := fmt.accessed udt name
    if trimActive && accessed.isNone then
      .empty
    else
      let kept := keepIndices accessed udt
      if accessed.isSome && kept.isEmpty then
        .blob udt.isUnion name udt.totalSize
      else if accessed.isSome then
        .udt udt.isUnion name (some udt.totalSize) (some (kept.length, udt.members.length))
          (fmt.trimmedLines udt.totalSize 0 kept)
      else
        .udt udt.isUnion name (if fmt.options.sizeComments then some udt.totalSize else none) none
          (kept.map fun ⟨index, m⟩ => fmt.memberLine index m)

end TypeDeclarationFormatter

structure TypeDeclaration where
  ordinal : Nat
  name : String
  declaration : String
  deriving DecidableEq, Repr

structure DeclarationState where
  seen : List String := []
  result : List TypeDeclaration := []
  deriving DecidableEq, Repr

namespace declarationsForOrdinals

def walk (til : Til) : (fuel : Nat) → Tinfo → DeclarationState → Option DeclarationState
  | 0, _, _ => none
  | fuel + 1, ti, s =>
    match ti with
    | .absent => some s
    | .ptr pointed => walk til fuel pointed s
    | .array element => walk til fuel element s
    | .func rettype args => do
      let s ← walk til fuel rettype s
      args.foldlM (fun s arg => walk til fuel arg s) s
    | .unnamed => some s
    | .named name =>
      if name.isEmpty then
        some s
      else if name ∈ s.seen then
        some s
      else do
        let s := { s with seen := name :: s.seen }
        let s ←
          match til.udtDetails? (.named name) with
          | none => some s
          | some udt => udt.members.foldlM (fun s m => walk til fuel m.type s) s
        let declaration : TypeDeclaration :=
          { ordinal := til.ordinalOf (.named name)
            name
            declaration := til.printTypeDecl (.named name) name }
        -- Seen on the way down, declared on the way up.
        some { s with result := s.result ++ [declaration] }

end declarationsForOrdinals

def declarationsForOrdinals (til : Til) (fuel : Nat) (ordinals : List Nat)
    : Option (List TypeDeclaration) := do
  let s ← ordinals.foldlM (fun s ordinal =>
    match til.tinfoFromOrdinal ordinal with
    | none => some s
    | some ti => declarationsForOrdinals.walk til fuel ti s) {}
  some s.result

end Types
end Idax
