import Idax.Types.Lemmas.Limited

/-!
This module contains the question whether a trimmed rendering is complete: a type that a printed
member contains by value has to be printed as well. The walk goes into the same members of a struct
that are printed, but it leaves out each struct that has no used offset of its own, and the members
of a type that it comes to at the depth limit.
-/

namespace Idax
namespace Types
namespace TypeDeclarationFormatter

variable (fmt : TypeDeclarationFormatter)

def PrintsByValue (x y : String) : Prop :=
  ∃ udt i m, fmt.til.udtDetails? (.named x) = some udt
    ∧ (i, m) ∈ keepIndices (fmt.accessed udt x) udt ∧ y ≠ "" ∧ valueName m.type = y

def followedIndices (accessed : Option (List Int)) (udt : UdtTypeData) : List Nat :=
  (udt.members.zipIdx.filter fun ⟨m, _⟩ => follows accessed m).map (·.snd)

def Request.types (til : Til) : Request → List Tinfo
  | .named ns _ => ns.filterMap til.tinfoFromName
  | .ordinals os => os.filterMap til.tinfoFromOrdinal

def Request.maxDepth : Request → Int
  | .named _ maxDepth => maxDepth
  | .ordinals _ => -1

def AtLimit (roots : List Tinfo) (maxDepth : Int) (name : String) : Prop :=
  0 ≤ maxDepth
    ∧ (name, 0) ∈ LimitedSearch.entries fmt.succ maxDepth.toNat (fmt.leavesAll roots)

def FollowsTo (owner name : String) : Prop :=
  ∃ udt m, fmt.til.udtDetails? (.named owner) = some udt ∧ m ∈ udt.members
    ∧ follows (fmt.accessed udt owner) m ∧ Mentions m.type name

/--
Used members lead from a root to `name`, through types that are kept, and not through one that is
first reached at the limit.
-/
inductive Reached (roots : List Tinfo) (maxDepth : Int) : String → Prop where
  | root {t name} (ht : t ∈ roots) (h : Mentions t name) (hkept : fmt.dropped name = false)
    : Reached roots maxDepth name
  | member {owner name} (howner : Reached roots maxDepth owner)
    (hopen : ¬fmt.AtLimit roots maxDepth owner) (h : fmt.FollowsTo owner name)
    (hkept : fmt.dropped name = false) : Reached roots maxDepth name

/--
No printed member contains by value a struct without used offsets; and what the printed members of a
type first reached at the limit contain by value is mentioned in a root, or in a used member of a
type reached above the limit.
-/
structure ContainsReached (roots : List Tinfo) (maxDepth : Int) : Prop where
  kept : ∀ x y, fmt.Reached roots maxDepth x → fmt.PrintsByValue x y → fmt.til.isUdt (.named y)
    → fmt.dropped y = false
  atLimit : ∀ x y, fmt.AtLimit roots maxDepth x → fmt.PrintsByValue x y
    → (fmt.til.isUdt (.named y) ∨ fmt.til.isEnum (.named y))
    → (∃ t ∈ roots, Mentions t y)
      ∨ ∃ owner, fmt.Reached roots maxDepth owner ∧ ¬fmt.AtLimit roots maxDepth owner
        ∧ fmt.FollowsTo owner y

variable {fmt}

theorem follows_some (accessed : List Int) (m : Udm) : follows (some accessed) m = keeps accessed m := by
  unfold follows keeps
  dsimp only
  split
  . rfl
  . rw [← decide_not]
    simp only [Int.not_le]

theorem keepIndices_eq (accessed : Option (List Int)) (udt : UdtTypeData)
    : keepIndices accessed udt
        = (udt.members.zipIdx.filter fun ⟨m, _⟩ => follows accessed m).map fun ⟨m, i⟩ => (i, m) := by
  unfold keepIndices
  split
  . simp [follows]
  . next accessed =>
    rw [List.filter_map]
    apply congrArg (List.map _)
    apply List.filter_congr
    intro ⟨m, i⟩ _
    apply (follows_some accessed m).symm

theorem mem_keepIndices {accessed : Option (List Int)} {udt : UdtTypeData} {m : Udm}
    : (∃ i, (i, m) ∈ keepIndices accessed udt) ↔ m ∈ udt.members ∧ follows accessed m := by
  rw [keepIndices_eq]
  simp only [List.mem_map, List.mem_filter, Prod.mk.injEq, Prod.exists]
  constructor
  . intro ⟨i, m', i', ⟨hmem, hfollows⟩, _, heq⟩
    subst heq
    apply And.intro _ hfollows
    rw [List.mem_iff_getElem?]
    exact ⟨i', List.mem_zipIdx_iff_getElem?.mp hmem⟩
  . intro ⟨hmem, hfollows⟩
    rcases List.mem_iff_getElem?.mp hmem with ⟨i, hi⟩
    exact ⟨i, m, i, ⟨List.mem_zipIdx_iff_getElem?.mpr hi, hfollows⟩, rfl, rfl⟩

theorem memberLine_member (index : Nat) (m : Udm) : (fmt.memberLine index m).member = some index := by
  unfold memberLine
  split <;> rfl

theorem paddingLines_members (src dst : Nat) : (paddingLines src dst).filterMap (·.member) = [] := by
  unfold paddingLines
  split <;> rfl

theorem trimmedLines_members (totalSize cursor : Nat) (kept : List (Nat × Udm))
    : (fmt.trimmedLines totalSize cursor kept).filterMap (·.member) = kept.map (·.fst) := by
  induction kept generalizing cursor with
  | nil =>
    unfold trimmedLines
    split
    . apply paddingLines_members
    . rfl
  | cons item kept ih =>
    unfold trimmedLines
    rw [List.filterMap_append, List.filterMap_cons, memberLine_member]
    simp only [ih]
    split
    . rw [paddingLines_members]
      rfl
    . rfl

theorem emitUdt_members {name : String} {udt : UdtTypeData}
    (hudt : fmt.til.udtDetails? (.named name) = some udt) (hkept : fmt.dropped name = false)
    : (fmt.emitUdt (.named name) name).members = followedIndices (fmt.accessed udt name) udt
        ∧ (fmt.emitUdt (.named name) name).isEmpty = false := by
  have hindices : (keepIndices (fmt.accessed udt name) udt).map (·.fst)
      = followedIndices (fmt.accessed udt name) udt := by
    rw [keepIndices_eq, followedIndices, List.map_map]
    rfl
  rw [← hindices]
  simp only [dropped, hudt] at hkept
  unfold emitUdt
  simp only [hudt]
  split
  . next htrim =>
    rw [Bool.and_assoc, Bool.and_comm (!udt.isUnion), ← Bool.and_assoc, hkept] at htrim
    simp at htrim
  . split
    . next hblob =>
      rw [Bool.and_eq_true, List.isEmpty_iff] at hblob
      rw [hblob.right]
      apply And.intro <;> rfl
    . split
      . apply And.intro _ rfl
        apply trimmedLines_members
      . apply And.intro _ rfl
        simp [Emission.members, memberLine_member, List.filterMap_map]

theorem not_isUdt_of_isEnum {name : String} (henum : fmt.til.isEnum (.named name))
    : fmt.til.udtDetails? (.named name) = none := by
  unfold Til.isEnum at henum
  unfold Til.udtDetails?
  split at henum
  . next hkind => rw [hkind]
  . simp at henum

theorem PrintsByValue.followsTo {x y : String} (h : fmt.PrintsByValue x y) : fmt.FollowsTo x y := by
  rcases h with ⟨udt, i, m, hudt, hmem, hname, hvalue⟩
  have ⟨hm, hfollows⟩ := mem_keepIndices.mp ⟨i, hmem⟩
  exact ⟨udt, m, hudt, hm, hfollows, mentions_of_valueName m.type hname hvalue⟩

section Reached

variable {roots : List Tinfo} {maxDepth : Int} {name : String}

theorem mem_succ_iff_followsTo {owner : String}
    : name ∈ fmt.succ owner ↔ fmt.FollowsTo owner name ∧ fmt.dropped name = false := by
  rw [mem_succ]
  constructor
  . intro ⟨udt, m, hudt, hm, hfollows, h, hkept⟩
    exact ⟨⟨udt, m, hudt, hm, hfollows, h⟩, hkept⟩
  . intro ⟨⟨udt, m, hudt, hm, hfollows, h⟩, hkept⟩
    exact ⟨udt, m, hudt, hm, hfollows, h, hkept⟩

theorem reached_iff_leadsTo
    : fmt.Reached roots maxDepth name
        ↔ LimitedSearch.LeadsTo fmt.succ (fmt.AtLimit roots maxDepth) (fmt.leavesAll roots) name := by
  constructor
  . intro h
    induction h with
    | root ht h hkept => exact .root ((mem_leavesAll _ _).mpr ⟨_, ht, h, hkept⟩)
    | member _ hopen h hkept ih => exact .step ih hopen (mem_succ_iff_followsTo.mpr ⟨h, hkept⟩)
  . intro h
    induction h with
    | root hroot =>
      rcases (mem_leavesAll _ _).mp hroot with ⟨t, ht, h, hkept⟩
      exact .root ht h hkept
    | step _ hopen hw ih =>
      have ⟨h, hkept⟩ := mem_succ_iff_followsTo.mp hw
      exact .member ih hopen h hkept

theorem reached_iff_entered (hlimit : 0 ≤ maxDepth)
    : fmt.Reached roots maxDepth name
        ↔ name ∈ (LimitedSearch.entries fmt.succ maxDepth.toNat (fmt.leavesAll roots)).map
          Prod.fst := by
  rw [LimitedSearch.entered_iff_leadsTo, reached_iff_leadsTo]
  rw [show fmt.AtLimit roots maxDepth = fun u =>
    (u, 0) ∈ LimitedSearch.entries fmt.succ maxDepth.toNat (fmt.leavesAll roots) from
    funext fun _ => propext (and_iff_right hlimit)]

theorem AtLimit.reached (h : fmt.AtLimit roots maxDepth name) : fmt.Reached roots maxDepth name := by
  rw [reached_iff_entered h.left, List.mem_map]
  exact ⟨(name, 0), h.right, rfl⟩

end Reached

section Order

variable {roots : List Tinfo} {maxDepth : Int} {out : List String}

theorem ContainsReached.reached (h : fmt.ContainsReached roots maxDepth) {x y : String}
    (hx : fmt.Reached roots maxDepth x) (hvalue : fmt.PrintsByValue x y)
    (hkind : fmt.til.isUdt (.named y) ∨ fmt.til.isEnum (.named y)) : fmt.Reached roots maxDepth y := by
  have hkept : fmt.dropped y = false := by
    cases hkind with
    | inl hudt => apply h.kept x y hx hvalue hudt
    | inr henum => simp [dropped, not_isUdt_of_isEnum henum]
  by_cases hlimit : fmt.AtLimit roots maxDepth x
  . rcases h.atLimit x y hlimit hvalue hkind with ⟨t, ht, hy⟩ | ⟨owner, howner, hopen, hy⟩
    . exact .root ht hy hkept
    . exact .member howner hopen hy hkept
  . exact .member hx hlimit hvalue.followsTo hkept

end Order

/--
`struct Inner { int x; }` and `struct Outer { Inner i; }`.
-/
def nested (usedOffsets : List UsedMemberOffsets) : TypeDeclarationFormatter :=
  { til :=
      { types :=
          [ ("Inner", .udt { members := [⟨"x", .unnamed, 0, 32, false⟩], totalSize := 4 })
          , ("Outer", .udt { members := [⟨"i", .named "Inner", 0, 32, false⟩], totalSize := 4 }) ]
        numbered := fun ordinal =>
          if ordinal = 1 then some (.named "Inner")
          else if ordinal = 2 then some (.named "Outer")
          else none
        ordinalOf := fun ti => if ti.typeName = "Inner" then 1 else 2
        print := fun _ name => "struct " ++ name ++ ";" }
    options := { trimUnreferenced := true, usedOffsets } }

end TypeDeclarationFormatter
end Types
end Idax
