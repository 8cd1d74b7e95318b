import Idax.Function.Xrefs
import Idax.Library.Duplicates

/-!
What `callers` and `callees` list. Both give exactly the functions at the other end of the calls, but
`callers` drops a function only where it is the last one listed already.
-/

namespace Idax
namespace Function

open Duplicates

namespace Database

variable (db : Database)

def Calls (f g : Func) : Prop :=
  ∃ xref ∈ db.xrefs, xref.isCall = true ∧ f.contains xref.source = true ∧ xref.target = g.start

def callSource (xb : Xref) : Option Nat :=
  if xb.isCall then (db.getFunc xb.source).map (·.start) else none

def callTarget (xb : Xref) : Option Nat :=
  if xb.isCall then (db.getFunc xb.target).map (·.start) else none

def callSources (fn : Func) : List Nat :=
  (db.firstTo fn.start).filterMap db.callSource

def callTargets (fn : Func) : List Nat :=
  (db.items fn).flatMap fun item => (db.firstFrom item).filterMap db.callTarget

structure CallRelationExact : Prop where
  callers_exact : ∀ ea f, db.getFunc ea = some f → ∃ l, callers db ea = .ok l ∧ l.Nodup
    ∧ ∀ a, a ∈ l ↔ ∃ g ∈ db.functions, g.start = a ∧ db.Calls g f
  callees_exact : ∀ ea g, db.getFunc ea = some g → ∃ l, callees db ea = .ok l ∧ l.Nodup
    ∧ ∀ a, a ∈ l ↔ ∃ f ∈ db.functions, f.start = a ∧ db.Calls g f
  converse : ∀ f ∈ db.functions, ∀ g ∈ db.functions, ∀ l l', callers db f.start = .ok l
    → callees db g.start = .ok l' → (g.start ∈ l ↔ f.start ∈ l')

end Database

variable {db : Database}

theorem contains_start {fn : Func} (h : fn ∈ db.functions) : fn.contains fn.start = true := by
  have := db.entry_nonempty fn h
  simp [Func.contains, Func.start, Chunk.contains, this]

theorem getFunc_eq_some_iff {ea : Nat} {fn : Func}
    : db.getFunc ea = some fn ↔ fn ∈ db.functions ∧ fn.contains ea = true := by
  unfold Database.getFunc
  constructor
  . intro h
    have hcontains := List.find?_some h
    exact ⟨List.mem_of_find?_eq_some h, hcontains⟩
  . intro ⟨hmem, hcontains⟩
    cases hfind : db.functions.find? (·.contains ea) with
    | none =>
      have := List.find?_eq_none.mp hfind fn hmem
      exact absurd hcontains this
    | some g =>
      have hg := List.find?_some hfind
      rw [db.disjoint g (List.mem_of_find?_eq_some hfind) fn hmem ea hg hcontains]

theorem eq_of_start_eq {f g : Func} (hf : f ∈ db.functions) (hg : g ∈ db.functions)
    (h : f.start = g.start) : f = g := by
  apply db.disjoint f hf g hg g.start _ (contains_start hg)
  rw [← h]
  apply contains_start hf

theorem mem_codeItems {start stop ea : Nat}
    : ea ∈ db.codeItems start stop ↔ start ≤ ea ∧ ea < stop ∧ db.isCode ea = true := by
  unfold Database.codeItems
  rw [List.mem_filter, List.mem_range'_1]
  constructor
  . intro ⟨hrange, hcode⟩
    exact ⟨hrange.left, by omega, hcode⟩
  . intro ⟨hle, hlt, hcode⟩
    exact ⟨⟨hle, by omega⟩, hcode⟩

theorem contains_of_mem_items {fn : Func} {item : Nat} (hfn : fn ∈ db.functions)
    (h : item ∈ db.items fn) : fn.contains item = true := by
  unfold Database.items at h
  rw [List.mem_append, List.mem_cons, List.mem_flatMap] at h
  cases h with
  | inl hentry =>
    cases hentry with
    | inl hstart =>
      rw [hstart]
      apply contains_start hfn
    | inr hitem =>
      have ⟨hle, hlt, _⟩ := mem_codeItems.mp hitem
      simp only [Func.contains, Chunk.contains, Func.start] at hle ⊢
      rw [Bool.or_eq_true, Bool.and_eq_true, decide_eq_true_eq, decide_eq_true_eq]
      exact .inl ⟨by omega, hlt⟩
  | inr htail =>
    rcases htail with ⟨c, hc, hitem⟩
    have ⟨hle, hlt, _⟩ := mem_codeItems.mp hitem
    rw [Func.contains, Bool.or_eq_true, List.any_eq_true]
    exact .inr ⟨c, hc, by simp [Chunk.contains, hle, hlt]⟩

theorem mem_items_of_contains {fn : Func} {item : Nat} (hcode : db.isCode item = true)
    (h : fn.contains item = true) : item ∈ db.items fn := by
  unfold Database.items
  rw [List.mem_append, List.mem_cons, List.mem_flatMap, mem_codeItems]
  rw [Func.contains, Bool.or_eq_true, List.any_eq_true] at h
  cases h with
  | inl hentry =>
    simp only [Chunk.contains, Bool.and_eq_true, decide_eq_true_eq] at hentry
    left
    by_cases hstart : item = fn.start
    . exact .inl hstart
    . unfold Func.start at hstart ⊢
      exact .inr ⟨by omega, hentry.right, hcode⟩
  | inr htail =>
    rcases htail with ⟨c, hc, hitem⟩
    simp only [Chunk.contains, Bool.and_eq_true, decide_eq_true_eq] at hitem
    exact .inr ⟨c, hc, mem_codeItems.mpr ⟨hitem.left, hitem.right, hcode⟩⟩

theorem isCall_iff (xb : Xref)
    : xb.isCall = true ↔ xb.iscode = true ∧ ¬(xb.type ≠ .callNear ∧ xb.type ≠ .callFar) := by
  unfold Xref.isCall
  rw [Bool.and_eq_true, Bool.or_eq_true, beq_iff_eq, beq_iff_eq, not_and_or, not_not, not_not]

theorem callers_visit_eq (result : List Nat) (xb : Xref)
    : callers.visit db result xb = (db.callSource xb).elim result (pushUnlessLast result) := by
  unfold callers.visit Database.callSource
  by_cases hcall : xb.isCall = true
  . have ⟨hcode, htype⟩ := (isCall_iff xb).mp hcall
    rw [if_neg (by simp [hcode]), if_neg htype, if_pos hcall]
    cases db.getFunc xb.source with
    | none => rfl
    | some caller =>
      simp only [Option.map_some, Option.elim_some, pushUnlessLast]
      split
      . next hlast =>
        rw [if_neg]
        intro heq
        cases hlast with
        | inl hempty => simp [List.isEmpty_iff.mp hempty] at heq
        | inr hne => exact hne heq
      . next hlast =>
        rw [not_or, not_not] at hlast
        rw [if_pos hlast.right]
  . rw [if_neg hcall]
    rw [isCall_iff, not_and_or, not_not] at hcall
    cases hcall with
    | inl hcode => simp [hcode]
    | inr htype => simp [htype]

theorem callees_visit_eq (result : List Nat) (xb : Xref)
    : callees.visit db result xb = (db.callTarget xb).elim result (pushUnlessMember result) := by
  unfold callees.visit Database.callTarget
  by_cases hcall : xb.isCall = true
  . have ⟨hcode, htype⟩ := (isCall_iff xb).mp hcall
    rw [if_neg (by simp [hcode]), if_neg htype, if_pos hcall]
    cases db.getFunc xb.target with
    | none => rfl
    | some target => simp [pushUnlessMember]
  . rw [if_neg hcall]
    rw [isCall_iff, not_and_or, not_not] at hcall
    cases hcall with
    | inl hcode => simp [hcode]
    | inr htype => simp [htype]

theorem callers_eq {ea : Nat} {fn : Func} (h : db.getFunc ea = some fn)
    : callers db ea = .ok (dropAdjacent (db.callSources fn)) := by
  unfold callers Database.callSources dropAdjacent
  rw [h, foldl_filterMap_elim]
  simp only [← callers_visit_eq]

theorem callees_eq {ea : Nat} {fn : Func} (h : db.getFunc ea = some fn)
    : callees db ea = .ok (dropLater (db.callTargets fn)) := by
  unfold callees Database.callTargets dropLater
  rw [h, List.foldl_flatMap]
  simp only [foldl_filterMap_elim, ← callees_visit_eq]

theorem mem_callSources (f : Func) (a : Nat)
    : a ∈ db.callSources f ↔ ∃ g ∈ db.functions, g.start = a ∧ db.Calls g f := by
  unfold Database.callSources Database.firstTo Database.callSource
  rw [List.mem_filterMap]
  constructor
  . intro ⟨xb, hxb, hsource⟩
    rw [List.mem_filter, beq_iff_eq] at hxb
    split at hsource
    . next hcall =>
      rw [Option.map_eq_some_iff] at hsource
      rcases hsource with ⟨g, hg, hstart⟩
      have ⟨hmem, hcontains⟩ := getFunc_eq_some_iff.mp hg
      exact ⟨g, hmem, hstart, xb, hxb.left, hcall, hcontains, hxb.right⟩
    . cases hsource
  . intro ⟨g, hg, hstart, xb, hxb, hcall, hcontains, htarget⟩
    refine ⟨xb, ?_, ?_⟩
    . rw [List.mem_filter, beq_iff_eq]
      exact ⟨hxb, htarget⟩
    . rw [if_pos hcall, getFunc_eq_some_iff.mpr ⟨hg, hcontains⟩, Option.map_some, hstart]

theorem mem_callTargets {g : Func} (hg : g ∈ db.functions) (a : Nat)
    : a ∈ db.callTargets g ↔ ∃ f ∈ db.functions, f.start = a ∧ db.Calls g f := by
  unfold Database.callTargets Database.firstFrom Database.callTarget
  simp only [List.mem_flatMap, List.mem_filterMap, List.mem_filter, beq_iff_eq]
  constructor
  . intro ⟨item, hitem, xb, ⟨hxb, hsource⟩, htarget⟩
    split at htarget
    . next hcall =>
      rw [Option.map_eq_some_iff] at htarget
      rcases htarget with ⟨f, hf, hstart⟩
      have ⟨hmem, hcontains⟩ := getFunc_eq_some_iff.mp hf
      -- a call goes to the start of a function, which is the one it is found in
      rcases db.call_target xb hxb hcall with ⟨f', hf', hstart'⟩
      have heq := db.disjoint f hmem f' hf' xb.target hcontains (hstart' ▸ contains_start hf')
      refine ⟨f, hmem, hstart, xb, hxb, hcall, ?_, ?_⟩
      . rw [hsource]
        apply contains_of_mem_items hg hitem
      . rw [heq, hstart']
    . cases htarget
  . intro ⟨f, hf, hstart, xb, hxb, hcall, hcontains, htarget⟩
    refine ⟨xb.source, mem_items_of_contains (db.call_source xb hxb hcall) hcontains, xb, ⟨hxb, rfl⟩, ?_⟩
    rw [if_pos hcall, htarget, getFunc_eq_some_iff.mpr ⟨hf, contains_start hf⟩, Option.map_some, hstart]

/--
`callers` and `callees` are exact and converse exactly when no function's references come, in the order
in which they are enumerated, from one function, another one and the first one again.
-/
theorem callRelationExact_iff (db : Database)
    : db.CallRelationExact ↔ ∀ fn ∈ db.functions, ¬Interleaved (db.callSources fn) := by
  constructor
  . intro h fn hfn
    have hfunc := getFunc_eq_some_iff.mpr ⟨hfn, contains_start hfn⟩
    rcases h.callers_exact fn.start fn hfunc with ⟨l, hl, hnodup, _⟩
    rw [callers_eq hfunc] at hl
    injection hl with hl
    rw [← nodup_dropAdjacent_iff, hl]
    exact hnodup
  . intro h
    constructor
    case callers_exact =>
      intro ea f hf
      have hmem := (getFunc_eq_some_iff.mp hf).left
      refine ⟨_, callers_eq hf, (nodup_dropAdjacent_iff _).mpr (h f hmem), ?_⟩
      intro a
      rw [mem_dropAdjacent, mem_callSources f]
    case callees_exact =>
      intro ea g hg
      have hmem := (getFunc_eq_some_iff.mp hg).left
      refine ⟨_, callees_eq hg, nodup_dropLater _, ?_⟩
      intro a
      rw [mem_dropLater, mem_callTargets hmem]
    case converse =>
      intro f hf g hg l l' hl hl'
      rw [callers_eq (getFunc_eq_some_iff.mpr ⟨hf, contains_start hf⟩)] at hl
      rw [callees_eq (getFunc_eq_some_iff.mpr ⟨hg, contains_start hg⟩)] at hl'
      injection hl with hl
      injection hl' with hl'
      rw [← hl, ← hl', mem_dropAdjacent, mem_dropLater, mem_callSources f, mem_callTargets hg]
      constructor
      . intro ⟨g', hg', hstart, hcalls⟩
        rw [eq_of_start_eq hg' hg hstart] at hcalls
        exact ⟨f, hf, rfl, hcalls⟩
      . intro ⟨f', hf', hstart, hcalls⟩
        rw [eq_of_start_eq hf' hf hstart] at hcalls
        exact ⟨g, hg, rfl, hcalls⟩

def separatedChunks : Database where
  functions := [⟨⟨0x1000, 0x1010⟩, []⟩, ⟨⟨0x100, 0x110⟩, [⟨0x300, 0x310⟩]⟩, ⟨⟨0x200, 0x210⟩, []⟩]
  isCode ea := ea == 0x100 || ea == 0x200 || ea == 0x300
  xrefs :=
    [ ⟨0x100, 0x1000, true, .callNear⟩
    , ⟨0x200, 0x1000, true, .callNear⟩
    , ⟨0x300, 0x1000, true, .callNear⟩ ]
  entry_nonempty := by decide
  disjoint := by
    intro f hf g hg ea hfea hgea
    simp only [List.mem_cons, List.not_mem_nil, or_false] at hf hg
    rcases hf with rfl | rfl | rfl <;> rcases hg with rfl | rfl | rfl
      <;> simp [Func.contains, Chunk.contains] at hfea hgea ⊢ <;> omega
  call_source := by decide
  call_target := by decide

theorem not_callRelationExact_separatedChunks
    : callers separatedChunks 0x1000 = .ok [0x100, 0x200, 0x100]
        ∧ ¬(∀ db : Database, db.CallRelationExact) := by
  constructor
  . rfl
  . intro h
    rcases (h separatedChunks).callers_exact 0x1000 _ rfl with ⟨l, hl, hnodup, _⟩
    have hlist : l = [0x100, 0x200, 0x100] := by
      injection hl with hl
      exact hl.symm
    rw [hlist] at hnodup
    revert hnodup
    decide

end Function
end Idax
