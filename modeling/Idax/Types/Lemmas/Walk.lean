import Idax.Library.PostOrder
import Idax.Types.Formatter

/-!
The walk of the renderer, without a depth limit, is a post-order search of the graph whose vertices
are the names that are not dropped and whose edges lead to the names mentioned in followed members.
-/

namespace Idax
namespace Types
namespace TypeDeclarationFormatter

variable (fmt : TypeDeclarationFormatter)

def followed (name : String) : List Tinfo :=
  match fmt.til.udtDetails? (.named name) with
  | none => []
  | some udt => (udt.members.filter fun m => follows (fmt.accessed udt name) m).map (·.type)

def dropped (name : String) : Bool :=
  match fmt.til.udtDetails? (.named name) with
  | none => false
  | some udt =>
    fmt.options.trimUnreferenced && (fmt.accessed udt name).isNone && !udt.isUnion

mutual

def leaves : Tinfo → List String
  | .absent => []
  | .unnamed => []
  | .ptr pointed => leaves pointed
  | .array element => leaves element
  | .func rettype args => leaves rettype ++ leavesAll args
  | .named name => if name.isEmpty || fmt.dropped name then [] else [name]

def leavesAll : List Tinfo → List String
  | [] => []
  | ti :: tis => leaves ti ++ leavesAll tis

end

def succ (name : String) : List String :=
  fmt.leavesAll (fmt.followed name)

def stateOf (stack out : List String) : WalkState :=
  { out := out.map fun name => ⟨name, .named name⟩, emitted := out, onStack := stack }

def RunsOne (ti : Tinfo) (s s' : WalkState) : Prop :=
  ∃ bound, ∀ fuel depth, bound ≤ fuel → fmt.walk (-1) fuel ti depth s = some s'

def RunsAll : List Tinfo → WalkState → WalkState → Prop
  | [], s, s' => s = s'
  | ti :: tis, s, s' => ∃ mid, RunsOne fmt ti s mid ∧ RunsAll tis mid s'

variable {fmt}

theorem RunsAll.foldlM {tis : List Tinfo} {s s' : WalkState} (h : fmt.RunsAll tis s s')
    : ∃ bound, ∀ fuel depth, bound ≤ fuel
        → tis.foldlM (fun s ti => fmt.walk (-1) fuel ti depth s) s = some s' := by
  induction tis generalizing s with
  | nil =>
    refine ⟨0, ?_⟩
    intro fuel depth _
    rw [List.foldlM_nil]
    rw [show s = s' from h]
    rfl
  | cons ti tis ih =>
    rcases h with ⟨mid, ⟨b1, h1⟩, hrest⟩
    rcases ih hrest with ⟨b2, h2⟩
    refine ⟨max b1 b2, ?_⟩
    intro fuel depth hfuel
    rw [List.foldlM_cons]
    rw [h1 fuel depth (by omega)]
    apply h2 fuel depth (by omega)

theorem runsAll_append {tis1 tis2 : List Tinfo} {s s' : WalkState}
    : fmt.RunsAll (tis1 ++ tis2) s s' ↔ ∃ mid, fmt.RunsAll tis1 s mid ∧ fmt.RunsAll tis2 mid s' := by
  induction tis1 generalizing s with
  | nil => simp [RunsAll]
  | cons ti tis ih =>
    simp only [List.cons_append, RunsAll, ih]
    constructor
    . intro ⟨mid1, hone, mid2, hall1, hall2⟩
      exact ⟨mid2, ⟨mid1, hone, hall1⟩, hall2⟩
    . intro ⟨mid2, ⟨mid1, hone, hall1⟩, hall2⟩
      exact ⟨mid1, hone, mid2, hall1, hall2⟩

theorem RunsOne.succ_fuel {ti : Tinfo} {s s' : WalkState} (bound : Nat)
    (h : ∀ fuel depth, bound ≤ fuel → fmt.walk (-1) (fuel + 1) ti depth s = some s')
    : fmt.RunsOne ti s s' := by
  refine ⟨bound + 1, ?_⟩
  intro fuel depth hfuel
  cases fuel with
  | zero => omega
  | succ fuel => exact h fuel depth (by omega)

theorem RunsOne.func {rettype : Tinfo} {args : List Tinfo} {s s' : WalkState}
    (h : fmt.RunsAll (rettype :: args) s s') : fmt.RunsOne (.func rettype args) s s' := by
  rcases h.foldlM with ⟨bound, h⟩
  apply RunsOne.succ_fuel bound
  intro fuel depth hfuel
  have := h fuel depth hfuel
  rw [List.foldlM_cons] at this
  apply this

theorem walk_seen {maxDepth depth : Int} {fuel : Nat} {name : String} {s : WalkState}
    (hseen : name ∈ s.emitted ∨ name ∈ s.onStack)
    : fmt.walk maxDepth (fuel + 1) (.named name) depth s = some s := by
  simp [walk, hseen]

theorem walk_skipped {maxDepth depth : Int} {fuel : Nat} {name : String} {s : WalkState}
    (hskip : (name.isEmpty || fmt.dropped name) = true)
    : fmt.walk maxDepth (fuel + 1) (.named name) depth s = some s := by
  simp only [walk]
  split
  . rfl
  . next hempty =>
    simp only [Bool.not_eq_true] at hempty
    rw [hempty, Bool.false_or, dropped] at hskip
    cases hudt : fmt.til.udtDetails? (.named name) with
    | none =>
      rw [hudt] at hskip
      cases hskip
    | some udt =>
      rw [hudt] at hskip
      dsimp only at hskip ⊢
      rw [if_pos hskip]
      split
      . rfl
      . split
        . rfl
        . simp

theorem walk_enter {maxDepth depth : Int} {fuel : Nat} {name : String} {s mid : WalkState}
    (hname : name.isEmpty = false) (hdropped : fmt.dropped name = false)
    (hlimit : ¬(0 ≤ maxDepth ∧ maxDepth < depth)) (hemitted : name ∉ s.emitted)
    (hstack : name ∉ s.onStack)
    (hbelow : (fmt.followed name).foldlM (fun s ti => fmt.walk maxDepth fuel ti (depth + 1) s)
      { s with onStack := name :: s.onStack } = some mid)
    : fmt.walk maxDepth (fuel + 1) (.named name) depth s
        = some
            { out := mid.out ++ [⟨name, .named name⟩]
              emitted := mid.emitted ++ [name]
              onStack := mid.onStack.erase name } := by
  simp only [walk, hname, Bool.false_eq_true, ↓reduceIte, hemitted, hstack, or_self]
  rw [if_neg hlimit]
  unfold followed at hbelow
  unfold dropped at hdropped
  cases hudt : fmt.til.udtDetails? (.named name) with
  | none =>
    rw [hudt] at hbelow
    simp only [List.foldlM_nil, Option.pure_def, Option.some.injEq] at hbelow
    simp [← hbelow]
  | some udt =>
    rw [hudt] at hbelow hdropped
    rw [List.foldlM_map, List.foldlM_filter] at hbelow
    simp only [Option.pure_def] at hbelow
    dsimp only at hdropped
    simp [hdropped, hbelow]

theorem RunsOne.seen {name : String} {s : WalkState} (hseen : name ∈ s.emitted ∨ name ∈ s.onStack)
    : fmt.RunsOne (.named name) s s := by
  apply RunsOne.succ_fuel 0
  intro fuel depth _
  apply walk_seen hseen

theorem RunsOne.skipped {name : String} (s : WalkState)
    (hskip : (name.isEmpty || fmt.dropped name) = true) : fmt.RunsOne (.named name) s s := by
  apply RunsOne.succ_fuel 0
  intro fuel depth _
  apply walk_skipped hskip

theorem RunsOne.enter {name : String} {s mid : WalkState} (hname : name.isEmpty = false)
    (hdropped : fmt.dropped name = false) (hemitted : name ∉ s.emitted) (hstack : name ∉ s.onStack)
    (h : fmt.RunsAll (fmt.followed name) { s with onStack := name :: s.onStack } mid)
    : fmt.RunsOne (.named name) s
        { out := mid.out ++ [⟨name, .named name⟩]
          emitted := mid.emitted ++ [name]
          onStack := mid.onStack.erase name } := by
  rcases h.foldlM with ⟨bound, h⟩
  apply RunsOne.succ_fuel bound
  intro fuel depth hfuel
  apply walk_enter hname hdropped (by omega) hemitted hstack (h fuel (depth + 1) hfuel)

mutual

theorem RunsOne.of_leaves (ti : Tinfo) (s s' : WalkState)
    (h : fmt.RunsAll ((fmt.leaves ti).map .named) s s') : fmt.RunsOne ti s s' := by
  match ti with
  | .absent =>
    apply RunsOne.succ_fuel 0
    intro fuel depth _
    simp only [walk]
    rw [show s = s' from h]
  | .unnamed =>
    apply RunsOne.succ_fuel 0
    intro fuel depth _
    simp only [walk]
    rw [show s = s' from h]
  | .ptr pointed =>
    rcases RunsOne.of_leaves pointed s s' h with ⟨bound, h⟩
    apply RunsOne.succ_fuel bound h
  | .array element =>
    rcases RunsOne.of_leaves element s s' h with ⟨bound, h⟩
    apply RunsOne.succ_fuel bound h
  | .func rettype args =>
    rw [leaves, List.map_append, runsAll_append] at h
    rcases h with ⟨mid, hret, hargs⟩
    apply RunsOne.func
    exact ⟨mid, RunsOne.of_leaves rettype s mid hret, RunsAll.of_leaves args mid s' hargs⟩
  | .named name =>
    rw [leaves] at h
    split at h
    . next hskip =>
      rw [← show s = s' from h]
      apply RunsOne.skipped s hskip
    . rcases h with ⟨mid, hone, hnil⟩
      rw [← show mid = s' from hnil]
      apply hone

theorem RunsAll.of_leaves (tis : List Tinfo) (s s' : WalkState)
    (h : fmt.RunsAll ((fmt.leavesAll tis).map .named) s s') : fmt.RunsAll tis s s' := by
  match tis with
  | [] => exact h
  | ti :: tis =>
    rw [leavesAll, List.map_append, runsAll_append] at h
    rcases h with ⟨mid, hone, hall⟩
    exact ⟨mid, RunsOne.of_leaves ti s mid hone, RunsAll.of_leaves tis mid s' hall⟩

end

mutual

theorem kept_of_mem_leaves (ti : Tinfo) (name : String) (h : name ∈ fmt.leaves ti)
    : name.isEmpty = false ∧ fmt.dropped name = false := by
  match ti with
  | .absent => simp [leaves] at h
  | .unnamed => simp [leaves] at h
  | .ptr pointed => exact kept_of_mem_leaves pointed name h
  | .array element => exact kept_of_mem_leaves element name h
  | .func rettype args =>
    rw [leaves, List.mem_append] at h
    cases h with
    | inl h => exact kept_of_mem_leaves rettype name h
    | inr h => exact kept_of_mem_leavesAll args name h
  | .named other =>
    rw [leaves] at h
    split at h
    . simp at h
    . next hkept =>
      rw [List.mem_singleton] at h
      simpa [h] using hkept

theorem kept_of_mem_leavesAll (tis : List Tinfo) (name : String) (h : name ∈ fmt.leavesAll tis)
    : name.isEmpty = false ∧ fmt.dropped name = false := by
  match tis with
  | [] => simp [leavesAll] at h
  | ti :: tis =>
    rw [leavesAll, List.mem_append] at h
    cases h with
    | inl h => exact kept_of_mem_leaves ti name h
    | inr h => exact kept_of_mem_leavesAll tis name h

end

theorem runsAll_of_visits {stack out vs out' : List String}
    (h : PostOrder.Visits fmt.succ stack out vs out')
    (hvs : ∀ v ∈ vs, v.isEmpty = false ∧ fmt.dropped v = false)
    : fmt.RunsAll (vs.map .named) (stateOf stack out) (stateOf stack out') := by
  induction h with
  | nil => rfl
  | @skip stack out v vs out' hseen _ ih =>
    have hrest := ih fun w hw => hvs w (List.mem_cons_of_mem v hw)
    exact ⟨stateOf stack out, RunsOne.seen hseen.symm, hrest⟩
  | @enter stack out v vs mid out' hstack hout _ _ ih1 ih2 =>
    have hbelow := RunsAll.of_leaves _ _ _ (ih1 fun w hw => kept_of_mem_leavesAll _ w hw)
    have hrest := ih2 fun w hw => hvs w (List.mem_cons_of_mem v hw)
    have ⟨hname, hdropped⟩ := hvs v List.mem_cons_self
    refine ⟨stateOf stack (mid ++ [v]), ?_, hrest⟩
    have := RunsOne.enter hname hdropped (s := stateOf stack out) hout hstack hbelow
    simpa [stateOf] using this

end TypeDeclarationFormatter
end Types
end Idax
