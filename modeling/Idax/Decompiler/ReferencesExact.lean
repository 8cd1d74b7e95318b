import Idax.Decompiler.ReferencedTypes
import Idax.Types.Retention

/-!
This module contains what a decompiled function refers to, and that the collection has exactly this: the
ordinals as far as names do not come with several of them, and all accesses. Declarations that are trimmed
to the collected offsets keep each member that is accessed.
-/

namespace Idax
namespace Decompiler

open Idax.Types (castInt UsedMemberOffsets)

inductive Reference where
  | declared (name : String) (ordinal : Nat)
  | access (name : String) (offset : Int)
  deriving DecidableEq, Repr

section References

variable {τ : Type} (sdk : TypeSdk τ)

def mentionsFrom : (levels : Nat) → τ → List Reference
  | 0, _ => []
  | levels + 1, ti =>
    match sdk.shape ti with
    | .absent => []
    | .pointer pointed => mentionsFrom levels pointed
    | .array element => mentionsFrom levels element
    | .function none => []
    | .function (some (rettype, args)) =>
      mentionsFrom levels rettype ++ args.flatMap (mentionsFrom levels)
    | .declared => [.declared (sdk.typeName ti) (sdk.ordinal ti)]
    | .other => []

def mentions (ti : τ) : List Reference :=
  mentionsFrom sdk 33 ti

def accessed (parentType : τ) (offset : Int) : List Reference :=
  if !sdk.present parentType || sdk.typeName parentType = "" then
    []
  else
    [.access (sdk.typeName parentType) offset]

structure Visited (τ : Type) where
  op : ItemType
  type : τ
  objEa : Address
  m : Nat
  parent : Option τ

def Visited.object (e : Visited τ) : Option τ :=
  if e.op = .exprObject then sdk.objectType e.objEa else none

def Visited.owner (e : Visited τ) : Option τ :=
  if e.op = .exprMemberRef then
    e.parent
  else if e.op = .exprMemberPtr then
    (e.parent.filter sdk.present).map sdk.pointedObject
  else
    none

def Visited.references (e : Visited τ) : List Reference :=
  mentions sdk e.type ++ ((e.object sdk).toList.flatMap (mentions sdk)
    ++ (e.owner sdk).toList.flatMap fun owner => accessed sdk owner (castInt e.m))

mutual

def CItem.expressions : CItem τ → List (Visited τ)
  | .expression op type objEa m children =>
    { op, type, objEa, m, parent := children.head?.bind CItem.type? } :: CItem.allExpressions children
  | .statement children => CItem.allExpressions children

def CItem.allExpressions : List (CItem τ) → List (Visited τ)
  | [] => []
  | item :: items => item.expressions ++ CItem.allExpressions items

end

def CFunc.references (cfunc : CFunc τ) : List Reference :=
  cfunc.funcType.toList.flatMap (mentions sdk) ++ ((cfunc.lvars.getD []).flatMap (mentions sdk)
    ++ cfunc.body.expressions.flatMap (Visited.references sdk))

end References

namespace ReferencedTypeCollector

def note (c : ReferencedTypeCollector) : Reference → ReferencedTypeCollector
  | .declared name ordinal => c.declare name ordinal
  | .access name offset => c.recordOffset name offset

end ReferencedTypeCollector

section Flatten

open ReferencedTypeCollector ReferencedTypeWalker

variable {τ : Type} {sdk : TypeSdk τ}

theorem collectFrom_eq (levels : Nat) (ti : τ) (c : ReferencedTypeCollector)
    : collectFrom sdk levels ti c = (mentionsFrom sdk levels ti).foldl note c := by
  induction levels generalizing ti c with
  | zero => rfl
  | succ levels ih =>
    rw [collectFrom, mentionsFrom]
    generalize sdk.shape ti = shape
    cases shape with
    | absent => rfl
    | pointer pointed => exact ih pointed c
    | array element => exact ih element c
    | function details =>
      cases details with
      | none => rfl
      | some details =>
        dsimp only
        rw [List.foldl_append, ih, List.foldl_flatMap]
        simp only [ih]
    | declared => rfl
    | other => rfl

theorem recordMemberAccess_eq (parentType : τ) (offset : Int) (c : ReferencedTypeCollector)
    : c.recordMemberAccess sdk parentType offset = (accessed sdk parentType offset).foldl note c := by
  unfold recordMemberAccess accessed
  split <;> rfl

theorem mentions_of_not_present {ti : τ} (habsent : sdk.present ti = false) : mentions sdk ti = [] := by
  unfold TypeSdk.present at habsent
  unfold mentions mentionsFrom
  split at habsent
  . next hshape => rw [hshape]
  . cases habsent

theorem collect_if_present (ti : τ) (c : ReferencedTypeCollector)
    : (if sdk.present ti then c.collect sdk ti else c) = (mentions sdk ti).foldl note c := by
  split
  . exact collectFrom_eq 33 ti c
  . next habsent =>
    rw [mentions_of_not_present (Bool.eq_false_iff.mpr habsent)]
    rfl

theorem visitObject_eq (e : Visited τ) (c : ReferencedTypeCollector)
    : visitObject sdk e.op e.objEa c = ((e.object sdk).toList.flatMap (mentions sdk)).foldl note c := by
  unfold visitObject Visited.object
  split
  . cases sdk.objectType e.objEa with
    | none => rfl
    | some objectType =>
      rw [Option.toList_some, List.flatMap_singleton]
      exact collectFrom_eq 33 objectType c
  . rfl

theorem visitMember_eq (e : Visited τ) (c : ReferencedTypeCollector)
    : visitMember sdk e.op e.m e.parent c
        = ((e.owner sdk).toList.flatMap fun owner => accessed sdk owner (castInt e.m)).foldl note c := by
  unfold visitMember Visited.owner
  by_cases href : e.op = .exprMemberRef
  . have hptr : ¬ e.op = .exprMemberPtr := by
      rw [href]
      decide
    rw [if_pos (.inl href), if_pos href]
    cases e.parent with
    | none => rfl
    | some parentType =>
      rw [Option.toList_some, List.flatMap_singleton, ← recordMemberAccess_eq]
      dsimp only
      rw [if_neg hptr]
      split
      . rfl
      . next habsent =>
        rw [recordMemberAccess, Bool.eq_false_iff.mpr habsent]
        rfl
  . rw [if_neg href]
    by_cases hptr : e.op = .exprMemberPtr
    . rw [if_pos (.inr hptr), if_pos hptr]
      cases e.parent with
      | none => rfl
      | some parentType =>
        dsimp only
        rw [Option.filter_some, if_pos hptr]
        split
        . rw [Option.map_some, Option.toList_some, List.flatMap_singleton, recordMemberAccess_eq]
        . rfl
    . rw [if_neg (by rintro (h | h) <;> contradiction), if_neg hptr]
      rfl

theorem visitExpr_eq (e : Visited τ) (c : ReferencedTypeCollector)
    : visitExpr sdk e.op e.type e.objEa e.m e.parent c = (e.references sdk).foldl note c := by
  unfold visitExpr Visited.references
  dsimp only
  rw [collect_if_present, visitObject_eq, visitMember_eq, List.foldl_append, List.foldl_append]

mutual

theorem applyTo_eq : (item : CItem τ) → (c : ReferencedTypeCollector) →
    applyTo sdk item c = (item.expressions.flatMap (Visited.references sdk)).foldl note c
  | .expression op type objEa m children, c => by
    unfold applyTo CItem.expressions
    rw [List.flatMap_cons, List.foldl_append, ← visitExpr_eq]
    exact applyToAll_eq children _
  | .statement children, c => by
    unfold applyTo CItem.expressions
    exact applyToAll_eq children c

theorem applyToAll_eq : (items : List (CItem τ)) → (c : ReferencedTypeCollector) →
    applyToAll sdk items c = ((CItem.allExpressions items).flatMap (Visited.references sdk)).foldl note c
  | [], c => by
    unfold applyToAll CItem.allExpressions
    rfl
  | item :: items, c => by
    unfold applyToAll CItem.allExpressions
    rw [List.flatMap_append, List.foldl_append, ← applyTo_eq item c]
    exact applyToAll_eq items _

end

theorem collectCFunc_eq (cfunc : CFunc τ)
    : collectCFunc sdk cfunc = (cfunc.references sdk).foldl note {} := by
  unfold collectCFunc CFunc.references
  rw [List.foldl_append, List.foldl_append, ← applyTo_eq, List.foldl_flatMap]
  have hfunc : (cfunc.funcType.elim {} fun functionType => collect sdk functionType {})
      = (cfunc.funcType.toList.flatMap (mentions sdk)).foldl note {} := by
    cases cfunc.funcType with
    | none => rfl
    | some functionType =>
      rw [Option.toList_some, List.flatMap_singleton]
      exact collectFrom_eq 33 functionType {}
  have hcollect : collect sdk = fun type c => (mentions sdk type).foldl note c := by
    funext type c
    exact collectFrom_eq 33 type c
  rw [← hfunc, hcollect]

end Flatten

section Exact

open ReferencedTypeCollector

def Reference.ordinalUnder (name : String) : Reference → Option Nat
  | .declared name' ordinal => if name' = name then some ordinal else none
  | .access _ _ => none

/--
The references that `collect` takes an ordinal from: those without a name, and the first of each name.
-/
def Contributes (refs : List Reference) (ordinal : Nat) : Prop :=
  .declared "" ordinal ∈ refs
    ∨ ∃ name, name ≠ "" ∧ refs.findSome? (Reference.ordinalUnder name) = some ordinal

structure Collected (refs : List Reference) (c : ReferencedTypeCollector) : Prop where
  seen : ∀ name, name ∈ c.seenNames.keys
    ↔ name ≠ "" ∧ (refs.findSome? (Reference.ordinalUnder name)).isSome
  ordinals : ∀ ordinal, ordinal ∈ c.ordinals.keys ↔ ordinal ≠ 0 ∧ Contributes refs ordinal
  offsets : ∀ name offset, offset ∈ ((c.usedOffsets.find? name).getD .empty).keys
    ↔ .access name offset ∈ refs
  nonempty : ∀ name offsets, c.usedOffsets.find? name = some offsets → offsets.keys ≠ []

theorem collected_empty : Collected [] {} := by
  constructor <;> simp [Contributes]

theorem contributes_append {refs : List Reference} {name : String} {ordinal o : Nat}
    : Contributes (refs ++ [.declared name ordinal]) o
        ↔ Contributes refs o ∨ o = ordinal
          ∧ (name = "" ∨ refs.findSome? (Reference.ordinalUnder name) = none) := by
  unfold Contributes
  simp only [List.mem_append, List.mem_singleton, Reference.declared.injEq, List.findSome?_append,
    List.findSome?_singleton, Reference.ordinalUnder]
  constructor
  . rintro ((hold | ⟨rfl, rfl⟩) | ⟨name', hname, hfound⟩)
    . exact .inl (.inl hold)
    . exact .inr ⟨rfl, .inl rfl⟩
    . cases hfirst : refs.findSome? (Reference.ordinalUnder name') with
      | some o' =>
        rw [hfirst, Option.some_or] at hfound
        exact .inl (.inr ⟨name', hname, hfirst.trans hfound⟩)
      | none =>
        rw [hfirst, Option.none_or] at hfound
        split at hfound
        . next heq =>
          rw [heq]
          exact .inr ⟨(Option.some.inj hfound).symm, .inr hfirst⟩
        . cases hfound
  . rintro ((hold | ⟨name', hname, hfound⟩) | ⟨rfl, hempty | hfirst⟩)
    . exact .inl (.inl hold)
    . exact .inr ⟨name', hname, by rw [hfound, Option.some_or]⟩
    . exact .inl (.inr ⟨hempty.symm, rfl⟩)
    . by_cases hempty : name = ""
      . exact .inl (.inr ⟨hempty.symm, rfl⟩)
      . refine .inr ⟨name, hempty, ?_⟩
        rw [hfirst, Option.none_or, if_pos rfl]

theorem isSome_append {refs : List Reference} {name : String} {ordinal : Nat} (name' : String)
    : ((refs ++ [Reference.declared name ordinal]).findSome? (Reference.ordinalUnder name')).isSome
        ↔ (refs.findSome? (Reference.ordinalUnder name')).isSome ∨ name = name' := by
  rw [List.findSome?_append, List.findSome?_singleton, Option.isSome_or, Bool.or_eq_true]
  apply or_congr_right
  rw [Reference.ordinalUnder]
  split
  . next heq => simp [heq]
  . next hne => simp [hne]

theorem mem_ordinals_declare {c : ReferencedTypeCollector} {name : String} {ordinal : Nat} (o : Nat)
    : o ∈ (c.declare name ordinal).ordinals.keys ↔ o ∈ c.ordinals.keys
        ∨ o ≠ 0 ∧ o = ordinal ∧ (name = "" ∨ name ∉ c.seenNames.keys) := by
  rw [OrderedMap.mem_keys_iff c.seenNames]
  unfold declare
  split
  . next hseen => simp [hseen.left, hseen.right]
  . next hnew =>
    have hfirst : name = "" ∨ ¬(c.seenNames.find? name).isSome := by
      by_cases hname : name = ""
      . exact .inl hname
      . exact .inr fun hsome => hnew ⟨hname, hsome⟩
    have hsame : (if name ≠ "" then { c with seenNames := c.seenNames.insert name () } else c).ordinals
        = c.ordinals := by
      split <;> rfl
    dsimp only
    split
    . next hzero =>
      dsimp only
      rw [OrderedMap.mem_keys_insert, hsame, or_comm]
      apply or_congr_right
      constructor
      . rintro rfl
        exact ⟨hzero, rfl, hfirst⟩
      . exact fun h => h.right.left
    . next hzero =>
      rw [hsame]
      constructor
      . exact .inl
      . rintro (hold | ⟨hne, rfl, _⟩)
        . exact hold
        . exact absurd hne hzero

theorem mem_seenNames_declare {c : ReferencedTypeCollector} {name : String} {ordinal : Nat} (name' : String)
    : name' ∈ (c.declare name ordinal).seenNames.keys
        ↔ name' ∈ c.seenNames.keys ∨ name' = name ∧ name ≠ "" := by
  unfold declare
  split
  . next hseen =>
    rw [← OrderedMap.mem_keys_iff] at hseen
    constructor
    . exact .inl
    . rintro (hold | ⟨rfl, _⟩)
      . exact hold
      . exact hseen.right
  . have hinsert : name' ∈ (if name ≠ "" then { c with seenNames := c.seenNames.insert name () }
        else c).seenNames.keys ↔ name' ∈ c.seenNames.keys ∨ name' = name ∧ name ≠ "" := by
      split
      . next hname =>
        rw [OrderedMap.mem_keys_insert, or_comm, and_iff_left hname]
      . next hname => simp [hname]
    dsimp only
    split
    . exact hinsert
    . exact hinsert

theorem usedOffsets_declare (c : ReferencedTypeCollector) (name : String) (ordinal : Nat)
    : (c.declare name ordinal).usedOffsets = c.usedOffsets := by
  unfold declare
  dsimp only
  split
  . rfl
  . split <;> split <;> rfl

theorem Collected.declare {refs : List Reference} {c : ReferencedTypeCollector} (h : Collected refs c)
    (name : String) (ordinal : Nat)
    : Collected (refs ++ [.declared name ordinal]) (c.declare name ordinal) := by
  constructor
  case seen =>
    intro name'
    rw [mem_seenNames_declare, h.seen, isSome_append]
    constructor
    . rintro (⟨hname, hold⟩ | ⟨rfl, hname⟩)
      . exact ⟨hname, .inl hold⟩
      . exact ⟨hname, .inr rfl⟩
    . rintro ⟨hname, hold | rfl⟩
      . exact .inl ⟨hname, hold⟩
      . exact .inr ⟨rfl, hname⟩
  case ordinals =>
    intro o
    have hfirst : (name = "" ∨ name ∉ c.seenNames.keys)
        ↔ (name = "" ∨ refs.findSome? (Reference.ordinalUnder name) = none) := by
      rw [h.seen, ← Option.not_isSome_iff_eq_none]
      tauto
    rw [mem_ordinals_declare, h.ordinals, contributes_append, hfirst]
    tauto
  case offsets =>
    intro name' offset
    rw [usedOffsets_declare, h.offsets]
    simp
  case nonempty =>
    rw [usedOffsets_declare]
    exact h.nonempty

theorem Collected.access {refs : List Reference} {c : ReferencedTypeCollector} (h : Collected refs c)
    (name : String) (offset : Int)
    : Collected (refs ++ [.access name offset]) (c.recordOffset name offset) := by
  have hordinal : ∀ name', (refs ++ [Reference.access name offset]).findSome? (Reference.ordinalUnder name')
      = refs.findSome? (Reference.ordinalUnder name') := by
    intro name'
    rw [List.findSome?_append, List.findSome?_singleton, Reference.ordinalUnder, Option.or_none]
  constructor
  case seen =>
    intro name'
    rw [hordinal]
    exact h.seen name'
  case ordinals =>
    intro o
    unfold Contributes
    simp only [hordinal, List.mem_append, List.mem_singleton, reduceCtorEq, or_false]
    exact h.ordinals o
  case offsets =>
    intro name' offset'
    unfold recordOffset
    dsimp only
    rw [OrderedMap.find?_insert]
    simp only [List.mem_append, List.mem_singleton, Reference.access.injEq, ← h.offsets]
    split
    . next heq =>
      rw [heq, Option.getD_some, OrderedMap.mem_keys_insert]
      simp [or_comm]
    . next hne => simp [hne]
  case nonempty =>
    intro name' offsets hfind
    unfold recordOffset at hfind
    dsimp only at hfind
    rw [OrderedMap.find?_insert] at hfind
    split at hfind
    . rw [← Option.some.inj hfind]
      apply List.ne_nil_of_mem (a := offset)
      rw [OrderedMap.mem_keys_insert]
      exact .inl rfl
    . exact h.nonempty name' offsets hfind

theorem Collected.run {refs : List Reference} {c : ReferencedTypeCollector} (h : Collected refs c)
    (rest : List Reference) : Collected (refs ++ rest) (rest.foldl note c) := by
  induction rest generalizing refs c with
  | nil => rwa [List.append_nil]
  | cons reference rest ih =>
    rw [List.append_cons, List.foldl_cons]
    apply ih
    cases reference with
    | declared name ordinal => exact h.declare name ordinal
    | access name offset => exact h.access name offset

theorem collected_collectCFunc {τ : Type} (sdk : TypeSdk τ) (cfunc : CFunc τ)
    : Collected (cfunc.references sdk) (collectCFunc sdk cfunc) := by
  rw [collectCFunc_eq]
  exact collected_empty.run (cfunc.references sdk)

end Exact

section Meaning

variable {τ : Type} {sdk : TypeSdk τ}

inductive Leads (sdk : TypeSdk τ) : (levels : Nat) → τ → τ → Prop where
  | here {levels t} (hshape : sdk.shape t = .declared) : Leads sdk (levels + 1) t t
  | pointer {levels t pointed u} (hshape : sdk.shape t = .pointer pointed)
    (h : Leads sdk levels pointed u) : Leads sdk (levels + 1) t u
  | array {levels t element u} (hshape : sdk.shape t = .array element)
    (h : Leads sdk levels element u) : Leads sdk (levels + 1) t u
  | ret {levels t rettype args u} (hshape : sdk.shape t = .function (some (rettype, args)))
    (h : Leads sdk levels rettype u) : Leads sdk (levels + 1) t u
  | arg {levels t rettype args arg u} (hshape : sdk.shape t = .function (some (rettype, args)))
    (harg : arg ∈ args) (h : Leads sdk levels arg u) : Leads sdk (levels + 1) t u

theorem mentionsFrom_of_leads {levels : Nat} {ti t : τ} (h : Leads sdk levels ti t)
    : .declared (sdk.typeName t) (sdk.ordinal t) ∈ mentionsFrom sdk levels ti := by
  induction h with
  | here hshape => simp [mentionsFrom, hshape]
  | pointer hshape _ ih => simpa [mentionsFrom, hshape] using ih
  | array hshape _ ih => simpa [mentionsFrom, hshape] using ih
  | ret hshape _ ih =>
    simp only [mentionsFrom, hshape, List.mem_append]
    exact .inl ih
  | arg hshape harg _ ih =>
    simp only [mentionsFrom, hshape, List.mem_append, List.mem_flatMap]
    exact .inr ⟨_, harg, ih⟩

theorem leads_of_mentionsFrom {levels : Nat} {ti : τ} {reference : Reference}
    (h : reference ∈ mentionsFrom sdk levels ti)
    : ∃ t, Leads sdk levels ti t ∧ reference = .declared (sdk.typeName t) (sdk.ordinal t) := by
  induction levels generalizing ti with
  | zero => cases h
  | succ levels ih =>
    rw [mentionsFrom] at h
    cases hshape : sdk.shape ti with
    | absent => simp [hshape] at h
    | pointer pointed =>
      rw [hshape] at h
      rcases ih h with ⟨t, hleads, heq⟩
      exact ⟨t, .pointer hshape hleads, heq⟩
    | array element =>
      rw [hshape] at h
      rcases ih h with ⟨t, hleads, heq⟩
      exact ⟨t, .array hshape hleads, heq⟩
    | function details =>
      rw [hshape] at h
      cases details with
      | none => cases h
      | some details =>
        rcases List.mem_append.mp h with hret | hargs
        . rcases ih hret with ⟨t, hleads, heq⟩
          exact ⟨t, .ret hshape hleads, heq⟩
        . rcases List.mem_flatMap.mp hargs with ⟨arg, harg, hmem⟩
          rcases ih hmem with ⟨t, hleads, heq⟩
          exact ⟨t, .arg hshape harg hleads, heq⟩
    | declared =>
      rw [hshape] at h
      exact ⟨ti, .here hshape, List.mem_singleton.mp h⟩
    | other => simp [hshape] at h

def Root (sdk : TypeSdk τ) (cfunc : CFunc τ) (t : τ) : Prop :=
  cfunc.funcType = some t ∨ t ∈ cfunc.lvars.getD []
    ∨ ∃ e ∈ cfunc.body.expressions, t = e.type ∨ e.object sdk = some t

def RefersTo (sdk : TypeSdk τ) (cfunc : CFunc τ) (t : τ) : Prop :=
  ∃ root, Root sdk cfunc root ∧ Leads sdk 33 root t

def Accesses (sdk : TypeSdk τ) (cfunc : CFunc τ) (name : String) (offset : Int) : Prop :=
  ∃ e ∈ cfunc.body.expressions, ∃ owner, e.owner sdk = some owner ∧ sdk.present owner = true
    ∧ sdk.typeName owner = name ∧ name ≠ "" ∧ castInt e.m = offset

theorem not_access_mem_mentions {ti : τ} {name : String} {offset : Int}
    : ¬ .access name offset ∈ mentions sdk ti := by
  intro hmem
  rcases leads_of_mentionsFrom hmem with ⟨_, _, heq⟩
  cases heq

theorem mem_accessed_iff {owner : τ} {offset : Int} {reference : Reference}
    : reference ∈ accessed sdk owner offset
        ↔ sdk.present owner = true ∧ sdk.typeName owner ≠ ""
          ∧ reference = .access (sdk.typeName owner) offset := by
  unfold accessed
  split
  . next h =>
    simp only [Bool.or_eq_true, Bool.not_eq_true', decide_eq_true_eq] at h
    constructor
    . intro hmem
      cases hmem
    . rintro ⟨hpresent, hname, _⟩
      rcases h with habsent | hempty
      . rw [hpresent] at habsent
        cases habsent
      . exact absurd hempty hname
  . next h =>
    simp only [Bool.or_eq_true, Bool.not_eq_true', decide_eq_true_eq, not_or, Bool.not_eq_false] at h
    rw [List.mem_singleton]
    tauto

theorem access_mem_references_iff {cfunc : CFunc τ} {name : String} {offset : Int}
    : .access name offset ∈ cfunc.references sdk ↔ Accesses sdk cfunc name offset := by
  simp only [CFunc.references, List.mem_append, List.mem_flatMap, not_access_mem_mentions, and_false,
    exists_false, false_or, Visited.references, Option.mem_toList, mem_accessed_iff,
    Reference.access.injEq, Accesses]
  constructor
  . rintro ⟨e, he, owner, howner, hpresent, hname, rfl, hoffset⟩
    exact ⟨e, he, owner, howner, hpresent, rfl, hname, hoffset.symm⟩
  . rintro ⟨e, he, owner, howner, hpresent, rfl, hname, hoffset⟩
    exact ⟨e, he, owner, howner, hpresent, hname, rfl, hoffset.symm⟩

theorem declared_mem_references_iff {cfunc : CFunc τ} {name : String} {ordinal : Nat}
    : .declared name ordinal ∈ cfunc.references sdk
        ↔ ∃ t, RefersTo sdk cfunc t ∧ sdk.typeName t = name ∧ sdk.ordinal t = ordinal := by
  have hmentions : ∀ root, .declared name ordinal ∈ mentions sdk root
      ↔ ∃ t, Leads sdk 33 root t ∧ sdk.typeName t = name ∧ sdk.ordinal t = ordinal := by
    intro root
    constructor
    . intro hmem
      rcases leads_of_mentionsFrom hmem with ⟨t, hleads, heq⟩
      injection heq with hname hordinal
      exact ⟨t, hleads, hname.symm, hordinal.symm⟩
    . rintro ⟨t, hleads, rfl, rfl⟩
      unfold mentions
      exact mentionsFrom_of_leads hleads
  have hroot : .declared name ordinal ∈ cfunc.references sdk
      ↔ ∃ root, Root sdk cfunc root ∧ .declared name ordinal ∈ mentions sdk root := by
    simp only [CFunc.references, List.mem_append, List.mem_flatMap, Visited.references,
      Option.mem_toList, mem_accessed_iff, reduceCtorEq, and_false, exists_false, or_false, Root]
    constructor
    . rintro (⟨root, hroot, hmem⟩ | ⟨root, hroot, hmem⟩ | ⟨e, he, hmem | ⟨root, hroot, hmem⟩⟩)
      . exact ⟨root, .inl hroot, hmem⟩
      . exact ⟨root, .inr (.inl hroot), hmem⟩
      . exact ⟨e.type, .inr (.inr ⟨e, he, .inl rfl⟩), hmem⟩
      . exact ⟨root, .inr (.inr ⟨e, he, .inr hroot⟩), hmem⟩
    . rintro ⟨root, hroot | hroot | ⟨e, he, rfl | hroot⟩, hmem⟩
      . exact .inl ⟨root, hroot, hmem⟩
      . exact .inr (.inl ⟨root, hroot, hmem⟩)
      . exact .inr (.inr ⟨e, he, .inl hmem⟩)
      . exact .inr (.inr ⟨e, he, .inr ⟨root, hroot, hmem⟩⟩)
  rw [hroot]
  simp only [hmentions, RefersTo]
  constructor
  . rintro ⟨root, hroot, t, hleads, hname⟩
    exact ⟨t, ⟨root, hroot, hleads⟩, hname⟩
  . rintro ⟨t, ⟨root, hroot, hleads⟩, hname⟩
    exact ⟨root, hroot, t, hleads, hname⟩

theorem contributes_iff {refs : List Reference}
    (hnames : ∀ name ordinal ordinal', name ≠ "" → .declared name ordinal ∈ refs →
      .declared name ordinal' ∈ refs → ordinal = ordinal') (ordinal : Nat)
    : Contributes refs ordinal ↔ ∃ name, .declared name ordinal ∈ refs := by
  have hsome : ∀ name o, refs.findSome? (Reference.ordinalUnder name) = some o →
      .declared name o ∈ refs := by
    intro name o hfound
    rcases List.exists_of_findSome?_eq_some hfound with ⟨reference, hmem, heq⟩
    cases reference with
    | declared name' o' =>
      rw [Reference.ordinalUnder] at heq
      split at heq
      . next hname =>
        rw [← hname, ← Option.some.inj heq]
        exact hmem
      . cases heq
    | access name' offset => cases heq
  constructor
  . rintro (hmem | ⟨name, _, hfound⟩)
    . exact ⟨"", hmem⟩
    . exact ⟨name, hsome name ordinal hfound⟩
  . rintro ⟨name, hmem⟩
    by_cases hname : name = ""
    . exact .inl (hname ▸ hmem)
    . have hisSome : (refs.findSome? (Reference.ordinalUnder name)).isSome := by
        rw [List.findSome?_isSome_iff]
        exact ⟨_, hmem, by rw [Reference.ordinalUnder, if_pos rfl]; rfl⟩
      rcases Option.isSome_iff_exists.mp hisSome with ⟨first, hfound⟩
      rw [hnames name ordinal first hname hmem (hsome name first hfound)]
      exact .inr ⟨name, hname, hfound⟩

end Meaning

section Collection

open ReferencedTypeCollector
open Idax.Types.TypeDeclarationFormatter (keeps_iff accessed_eq dropped_eq emitUdt_members follows_some
  followed_eq mem_followedIndices)

variable {τ : Type} (sdk : TypeSdk τ) (cfunc : CFunc τ)

structure CollectedExactly (collection : ReferencedTypeCollection) : Prop where
  ordinals_ascend : collection.ordinals.Pairwise (· < ·)
  mem_ordinals : ∀ ordinal, ordinal ∈ collection.ordinals
    ↔ ordinal ≠ 0 ∧ Contributes (cfunc.references sdk) ordinal
  names_ascend : (collection.usedOffsets.map UsedMemberOffsets.typeName).Pairwise (· < ·)
  offsets_ascend : ∀ e ∈ collection.usedOffsets, e.byteOffsets ≠ [] ∧ e.byteOffsets.Pairwise (· < ·)
  mem_offsets : ∀ name offset, (∃ e ∈ collection.usedOffsets, e.typeName = name ∧ offset ∈ e.byteOffsets)
    ↔ Accesses sdk cfunc name offset

theorem collectedExactly : CollectedExactly sdk cfunc (collectionOf sdk cfunc) := by
  have h := collected_collectCFunc sdk cfunc
  constructor
  case ordinals_ascend => exact OrderedMap.keys_sorted _
  case mem_ordinals => exact h.ordinals
  case names_ascend =>
    unfold collectionOf
    dsimp only
    rw [List.map_map]
    exact OrderedMap.keys_sorted (collectCFunc sdk cfunc).usedOffsets
  case offsets_ascend =>
    intro e he
    rcases List.mem_map.mp he with ⟨⟨name, offsets⟩, hmem, rfl⟩
    exact ⟨h.nonempty name offsets (OrderedMap.find?_of_mem hmem), offsets.keys_sorted⟩
  case mem_offsets =>
    intro name offset
    rw [← access_mem_references_iff, ← h.offsets]
    constructor
    . rintro ⟨e, he, rfl, hoffset⟩
      rcases List.mem_map.mp he with ⟨⟨name, offsets⟩, hmem, rfl⟩
      rw [OrderedMap.find?_of_mem hmem]
      exact hoffset
    . intro hoffset
      cases hfind : (collectCFunc sdk cfunc).usedOffsets.find? name with
      | none =>
        rw [hfind] at hoffset
        cases hoffset
      | some offsets =>
        rw [hfind] at hoffset
        exact ⟨_, List.mem_map_of_mem (OrderedMap.mem_of_find? hfind), rfl, hoffset⟩

theorem mem_ordinals_iff
    (hnames : ∀ t t', RefersTo sdk cfunc t → RefersTo sdk cfunc t' → sdk.typeName t ≠ "" →
      sdk.typeName t = sdk.typeName t' → sdk.ordinal t = sdk.ordinal t') (ordinal : Nat)
    : ordinal ∈ (collectionOf sdk cfunc).ordinals
        ↔ ordinal ≠ 0 ∧ ∃ t, RefersTo sdk cfunc t ∧ sdk.ordinal t = ordinal := by
  rw [(collectedExactly sdk cfunc).mem_ordinals, contributes_iff]
  . simp only [declared_mem_references_iff]
    apply and_congr_right
    intro _
    constructor
    . rintro ⟨_, t, ht, _, hordinal⟩
      exact ⟨t, ht, hordinal⟩
    . rintro ⟨t, ht, hordinal⟩
      exact ⟨_, t, ht, rfl, hordinal⟩
  . intro name o o' hname hmem hmem'
    rcases declared_mem_references_iff.mp hmem with ⟨t, ht, rfl, rfl⟩
    rcases declared_mem_references_iff.mp hmem' with ⟨t', ht', hsame, rfl⟩
    exact hnames t t' ht ht' hname hsame.symm

section Trimmed

variable {cfunc} {fmt : Types.TypeDeclarationFormatter}

/--
Of a struct that is not accessed nothing is rendered; of one that is accessed the members are followed
and rendered that are accessed at one of their whole bytes.
-/
structure TrimmedToAccesses (cfunc : CFunc τ) (fmt : Types.TypeDeclarationFormatter) (name : String)
    (udt : Types.UdtTypeData) : Prop where
  dropped : fmt.dropped name = true ↔ ∀ offset, ¬Accesses sdk cfunc name offset
  followed : fmt.dropped name = false
    → fmt.followed name = (fmt.walkedIndices name).filterMap fun i => (udt.members[i]?).map (·.type)
  walked : ∀ i m, udt.members[i]? = some m → m.testedEnd < 2 ^ 31 →
    (i ∈ fmt.walkedIndices name ↔ ∃ offset, Accesses sdk cfunc name offset
      ∧ (m.offset / 8 : Nat) ≤ offset ∧ offset < m.testedEnd)
  emitted : fmt.walkedIndices name = (fmt.emitUdt (.named name) name).members

theorem mem_usedOffsets_iff (hused : fmt.options.usedOffsets = (collectionOf sdk cfunc).usedOffsets)
    {name : String} {offset : Int}
    : offset ∈ fmt.usedOffsets name ↔ Accesses sdk cfunc name offset := by
  have hentries : fmt.usedOffsets name = (fmt.options.usedOffsets.filter fun entry =>
      !entry.typeName.isEmpty && entry.typeName == name).flatMap (·.byteOffsets) := by
    unfold Types.TypeDeclarationFormatter.usedOffsets Types.usedOffsetsMap
    dsimp only
    split
    . next hempty => rw [List.isEmpty_iff.mp hempty, Option.getD_none, List.flatMap_nil]
    . rfl
  rw [hentries, hused, ← (collectedExactly sdk cfunc).mem_offsets]
  simp only [List.mem_flatMap, List.mem_filter, Bool.and_eq_true, Bool.not_eq_true', beq_iff_eq,
    String.isEmpty_eq_false_iff]
  constructor
  . rintro ⟨e, ⟨he, _, hname⟩, hoffset⟩
    exact ⟨e, he, hname, hoffset⟩
  . rintro ⟨e, he, hname, hoffset⟩
    have haccesses := ((collectedExactly sdk cfunc).mem_offsets _ _).mp ⟨e, he, hname, hoffset⟩
    rcases haccesses with ⟨_, _, _, _, _, _, hne, _⟩
    rw [← hname] at hne
    exact ⟨e, ⟨he, hne, hname⟩, hoffset⟩

theorem keeps_iff_accesses (hused : fmt.options.usedOffsets = (collectionOf sdk cfunc).usedOffsets)
    (name : String) {m : Types.Udm} (hend : m.testedEnd < 2 ^ 31)
    : Types.TypeDeclarationFormatter.keeps (fmt.usedOffsets name) m = true
        ↔ ∃ offset, Accesses sdk cfunc name offset ∧ (m.offset / 8 : Nat) ≤ offset
          ∧ offset < m.testedEnd := by
  have hstart : m.testedStart = (m.offset / 8 : Nat) := by
    unfold Types.Udm.testedEnd at hend
    exact Types.castInt_of_lt (by omega)
  have hsum : m.testedStart + m.testedSize = m.testedEnd := by
    unfold Types.Udm.testedEnd at hend ⊢
    rw [hstart]
    unfold Types.Udm.testedSize
    rw [Types.castInt_of_lt (by omega)]
    split <;> omega
  rw [keeps_iff, hsum, hstart]
  simp only [mem_usedOffsets_iff sdk hused]

theorem trimmedToAccesses (htrim : fmt.options.trimUnreferenced = true)
    (hused : fmt.options.usedOffsets = (collectionOf sdk cfunc).usedOffsets) {name : String}
    {udt : Types.UdtTypeData} (hudt : fmt.til.udtDetails? (.named name) = some udt)
    (hunion : udt.isUnion = false) : TrimmedToAccesses sdk cfunc fmt name udt := by
  have hdropped : fmt.dropped name = true ↔ ∀ offset, ¬Accesses sdk cfunc name offset := by
    rw [dropped_eq hudt hunion htrim, List.isEmpty_iff, List.eq_nil_iff_forall_not_mem]
    simp only [mem_usedOffsets_iff sdk hused]
  cases hkept : fmt.dropped name with
  | true =>
    have hnone := hdropped.mp hkept
    have hwalked : fmt.walkedIndices name = [] := by
      simp [Types.TypeDeclarationFormatter.walkedIndices, hudt, hkept]
    have hemitted : fmt.emitUdt (.named name) name = .empty := by
      rw [dropped_eq hudt hunion htrim] at hkept
      have haccessed : fmt.accessed udt name = none := by
        rw [accessed_eq hunion htrim, if_pos hkept]
      simp [Types.TypeDeclarationFormatter.emitUdt, hudt, htrim, hunion, haccessed]
    constructor
    case dropped => exact hdropped
    case followed =>
      intro hkept'
      rw [hkept] at hkept'
      cases hkept'
    case walked =>
      intro i m _ _
      simp [hwalked, hnone]
    case emitted =>
      rw [hwalked, hemitted]
      rfl
  | false =>
    have hne : ¬(fmt.usedOffsets name).isEmpty := by
      rw [← dropped_eq hudt hunion htrim, hkept]
      decide
    have hwalked : fmt.walkedIndices name
        = Types.TypeDeclarationFormatter.followedIndices (fmt.accessed udt name) udt := by
      simp [Types.TypeDeclarationFormatter.walkedIndices, hudt, hkept]
    constructor
    case dropped => exact hdropped
    case followed => exact fun _ => followed_eq hudt hkept
    case walked =>
      intro i m hm hend
      rw [hwalked, mem_followedIndices hm, accessed_eq hunion htrim, if_neg hne, follows_some]
      exact keeps_iff_accesses sdk hused name hend
    case emitted =>
      rw [hwalked, (emitUdt_members hudt hkept).left]

end Trimmed

/--
The collection fails only where there is no function or it is not decompiled. It has what the function
refers to: all accesses, and all ordinals where no name comes with two of them. Declarations that are
trimmed to it keep the structs and the members that are accessed.
-/
theorem collectReferencedTypes_exact (functions : Address → Option (Option (CFunc τ)))
    (functionAddress : Address)
    : (∀ error, collectReferencedTypes sdk functions functionAddress = .error error →
        ∀ cfunc, functions functionAddress ≠ some (some cfunc))
      ∧ ∀ collection, collectReferencedTypes sdk functions functionAddress = .ok collection →
        ∃ cfunc, functions functionAddress = some (some cfunc)
          ∧ CollectedExactly sdk cfunc collection
          ∧ ((∀ t t', RefersTo sdk cfunc t → RefersTo sdk cfunc t' → sdk.typeName t ≠ "" →
              sdk.typeName t = sdk.typeName t' → sdk.ordinal t = sdk.ordinal t') →
            ∀ ordinal, ordinal ∈ collection.ordinals
              ↔ ordinal ≠ 0 ∧ ∃ t, RefersTo sdk cfunc t ∧ sdk.ordinal t = ordinal)
          ∧ ∀ fmt : Types.TypeDeclarationFormatter, fmt.options.trimUnreferenced = true →
            fmt.options.usedOffsets = collection.usedOffsets →
            ∀ name udt, fmt.til.udtDetails? (.named name) = some udt → udt.isUnion = false →
              TrimmedToAccesses sdk cfunc fmt name udt := by
  unfold collectReferencedTypes
  split
  . next hnone =>
    refine ⟨?_, ?_⟩
    . intro _ _ cfunc hsome
      rw [hnone] at hsome
      cases hsome
    . intro collection heq
      cases heq
  . next hfailed =>
    refine ⟨?_, ?_⟩
    . intro _ _ cfunc hsome
      rw [hfailed] at hsome
      cases hsome
    . intro collection heq
      cases heq
  . next cfunc hcfunc =>
    refine ⟨?_, ?_⟩
    . intro error heq
      cases heq
    . intro collection heq
      rw [← Except.ok.inj heq]
      refine ⟨cfunc, hcfunc, collectedExactly sdk cfunc, ?_, ?_⟩
      . intro hnames ordinal
        exact mem_ordinals_iff sdk cfunc hnames ordinal
      . intro fmt htrim hused name udt hudt hunion
        exact trimmedToAccesses sdk htrim hused hudt hunion

end Collection

end Decompiler
end Idax
