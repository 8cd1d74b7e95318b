import Mathlib.Data.List.Pairwise
import Idax.Listeners.Lemmas.Listener
import Idax.Ui.History

/-!
Tokens are routed exactly. The subscriptions of the two listeners are at any time those of the
grants that are not released yet, one grant after the other, and every token denotes one of them.
-/

namespace Idax
namespace Ui

variable {κ φ : Type}

theorem viewTokenBase_eq : viewTokenBase = 4611686018427387904 :=
  rfl

theorem genericTokenBase_eq : genericTokenBase = 9223372036854775808 :=
  rfl

section Perform

inductive Performed (s : State κ φ) : Call κ φ → Result (Option Nat) × State κ φ → Prop where
  | rejected (call : Call κ φ) (e : Error) : Performed s call (.error e, s)
  | ui (call : Call κ φ) (handler : UiNotification × UiHandler κ φ)
    (hhandlers : call.handlers = some ([handler], [])) (hgeneric : call.generic = false)
    : Performed s call (
        .ok (some (s.ui.nextToken + 1)),
        { s with ui := (s.ui.subscribeAll [handler]).2 }
      )
  | view (call : Call κ φ) (handler : ViewNotification × ViewHandler κ φ)
    (hhandlers : call.handlers = some ([], [handler])) (hgeneric : call.generic = false)
    : Performed s call (
        .ok (some (s.view.nextToken + 1 + viewTokenBase)),
        { s with view := (s.view.subscribeAll [handler]).2 }
      )
  | generic (call : Call κ φ) (callback : EventCallback κ φ)
    (hhandlers : call.handlers
      = some (State.eventUiHandlers callback, State.eventViewHandlers callback))
    (hgeneric : call.generic = true)
    : Performed s call (subscribed (s.onEvent (some callback)))
  | unsubscribe (token : Nat)
    : Performed s (.unsubscribe token) (unsubscribed (s.unsubscribe token))

theorem performed_subscribeUi (s : State κ φ) {call : Call κ φ} {code : UiNotification}
    {handler : UiHandler κ φ} (hhandlers : call.handlers = some ([(code, handler)], []))
    (hgeneric : call.generic = false)
    : Performed s call (subscribed (s.subscribeUi code handler)) := by
  have h := Performed.ui (s := s) call (code, handler) hhandlers hgeneric
  simp only [Listener.subscribeAll, Listener.subscribe_eq] at h
  simp only [State.subscribeUi, Listener.subscribe_eq]
  apply h

theorem performed_subscribeView (s : State κ φ) {call : Call κ φ} {code : ViewNotification}
    {handler : ViewHandler κ φ} (hhandlers : call.handlers = some ([], [(code, handler)]))
    (hgeneric : call.generic = false)
    : Performed s call (subscribed (s.subscribeView code handler)) := by
  have h := Performed.view (s := s) call (code, handler) hhandlers hgeneric
  simp only [Listener.subscribeAll, Listener.subscribe_eq] at h
  simp only [State.subscribeView, Listener.subscribe_eq]
  apply h

theorem performed_subscribeWidget (s : State κ φ) {call : Call κ φ} {code : UiNotification}
    {widget : Widget} {callback : Option κ}
    (hhandlers : call.handlers
      = widget.impl.map fun target => ([(code, .widget target widget.id callback)], []))
    (hgeneric : call.generic = false)
    : Performed s call (subscribed (s.subscribeWidget code widget callback)) := by
  unfold State.subscribeWidget WidgetAccess.raw
  cases himpl : widget.impl with
  | none => apply Performed.rejected
  | some target =>
    rw [himpl] at hhandlers
    apply performed_subscribeUi s hhandlers hgeneric

theorem performed (s : State κ φ) (call : Call κ φ) : Performed s call (call.perform s) := by
  cases call with
  | onWidgetVisibleOf widget callback => apply performed_subscribeWidget s rfl rfl
  | onWidgetInvisibleOf widget callback => apply performed_subscribeWidget s rfl rfl
  | onWidgetClosingOf widget callback => apply performed_subscribeWidget s rfl rfl
  | onPopupReady callback =>
    cases callback with
    | none => apply Performed.rejected
    | some callback => apply performed_subscribeUi s rfl rfl
  | onRenderingInfo callback =>
    cases callback with
    | none => apply Performed.rejected
    | some callback => apply performed_subscribeUi s rfl rfl
  | onEvent callback =>
    cases callback with
    | none => apply Performed.rejected
    | some callback => apply Performed.generic _ (.plain callback) rfl rfl
  | onEventFiltered filter callback =>
    cases filter with
    | none => apply Performed.rejected
    | some filter =>
      cases callback with
      | none => apply Performed.rejected
      | some callback => apply Performed.generic _ (.filtered filter callback) rfl rfl
  | unsubscribe token => apply Performed.unsubscribe
  | _ => first
    | apply performed_subscribeUi s rfl rfl
    | apply performed_subscribeView s rfl rfl

end Perform

section Invariant

def Grant.inner (g : Grant κ φ) : List Nat :=
  g.ui.map Listener.Subscription.token ++ g.view.map (·.token + viewTokenBase)

inductive Grant.Drawn (s : State κ φ) : Grant κ φ → Prop where
  | ui (call : Call κ φ) (sub : Listener.Subscription UiNotification (UiHandler κ φ))
    (hgeneric : call.generic = false) (hpos : 0 < sub.token) (hle : sub.token ≤ s.ui.nextToken)
    : Drawn s ⟨sub.token, call, [sub], []⟩
  | view (call : Call κ φ) (sub : Listener.Subscription ViewNotification (ViewHandler κ φ))
    (hgeneric : call.generic = false) (hpos : 0 < sub.token) (hle : sub.token ≤ s.view.nextToken)
    : Drawn s ⟨sub.token + viewTokenBase, call, [], [sub]⟩
  | generic (call : Call κ φ) (n : Nat)
    (us : List (Listener.Subscription UiNotification (UiHandler κ φ)))
    (vs : List (Listener.Subscription ViewNotification (ViewHandler κ φ)))
    (hgeneric : call.generic = true) (hpos : 0 < n) (hle : n ≤ s.nextGenericToken)
    (hui : ∀ sub ∈ us, sub.token ≤ s.ui.nextToken)
    (hview : ∀ sub ∈ vs, sub.token ≤ s.view.nextToken)
    : Drawn s ⟨genericTokenBase + n, call, us, vs⟩

def Grant.Apart (g g' : Grant κ φ) : Prop :=
  g.token ≠ g'.token
    ∧ (∀ sub ∈ g.ui, ∀ sub' ∈ g'.ui, sub.token ≠ sub'.token)
    ∧ (∀ sub ∈ g.view, ∀ sub' ∈ g'.view, sub.token ≠ sub'.token)

def State.InRange (s : State κ φ) : Prop :=
  s.ui.nextToken < viewTokenBase ∧ s.view.nextToken < viewTokenBase

structure History.Inv (h : History κ φ) : Prop where
  ui_valid : h.state.ui.Valid
  view_valid : h.state.view.Valid
  ui_count : h.state.ui.nextToken = (h.grants.flatMap Grant.ui).length
  view_count : h.state.view.nextToken = (h.grants.flatMap Grant.view).length
  generic_le : h.state.nextGenericToken ≤ h.state.ui.nextToken
  drawn : ∀ g ∈ h.grants, g.Drawn h.state
  apart : h.grants.Pairwise Grant.Apart
  handlers : ∀ g ∈ h.grants, g.call.handlers = some (
    g.ui.map fun sub => (sub.notificationCode, sub.handler),
    g.view.map fun sub => (sub.notificationCode, sub.handler)
  )
  released : ∀ token ∈ h.released, token ∈ h.returned
  ui_subs : h.state.ui.subs = h.live.flatMap Grant.ui
  view_subs : h.state.view.subs = h.live.flatMap Grant.view
  routes : ∀ token inner, h.state.genericRoutes.find? token = some inner
    ↔ ∃ g ∈ h.live, g.call.generic = true ∧ g.token = token ∧ g.inner = inner

namespace Grant

theorem Drawn.mono {s s' : State κ φ} {g : Grant κ φ} (hdrawn : g.Drawn s)
    (hui : s.ui.nextToken ≤ s'.ui.nextToken) (hview : s.view.nextToken ≤ s'.view.nextToken)
    (hgen : s.nextGenericToken ≤ s'.nextGenericToken) : g.Drawn s' := by
  cases hdrawn with
  | ui call sub hgeneric hpos hle =>
    apply Drawn.ui call sub hgeneric hpos
    omega
  | view call sub hgeneric hpos hle =>
    apply Drawn.view call sub hgeneric hpos
    omega
  | generic call n us vs hgeneric hpos hle hus hvs =>
    apply Drawn.generic call n us vs hgeneric hpos
    . omega
    . intro sub hsub
      have := hus sub hsub
      omega
    . intro sub hsub
      have := hvs sub hsub
      omega

theorem Drawn.ui_le {s : State κ φ} {g : Grant κ φ} (hdrawn : g.Drawn s)
    : ∀ sub ∈ g.ui, sub.token ≤ s.ui.nextToken := by
  cases hdrawn with
  | ui call sub hgeneric hpos hle => simpa using hle
  | view call sub hgeneric hpos hle => simp
  | generic call n us vs hgeneric hpos hle hus hvs => apply hus

theorem Drawn.view_le {s : State κ φ} {g : Grant κ φ} (hdrawn : g.Drawn s)
    : ∀ sub ∈ g.view, sub.token ≤ s.view.nextToken := by
  cases hdrawn with
  | ui call sub hgeneric hpos hle => simp
  | view call sub hgeneric hpos hle => simpa using hle
  | generic call n us vs hgeneric hpos hle hus hvs => apply hvs

instance : Std.Symm (@Apart κ φ) where
  symm _ _ h := ⟨
    Ne.symm h.left,
    fun sub hsub sub' hsub' => Ne.symm (h.right.left sub' hsub' sub hsub),
    fun sub hsub sub' hsub' => Ne.symm (h.right.right sub' hsub' sub hsub)
  ⟩

end Grant

theorem History.Inv.apart_of_ne {h : History κ φ} (hinv : h.Inv) {g g' : Grant κ φ}
    (hg : g ∈ h.grants) (hg' : g' ∈ h.grants) (hne : g.token ≠ g'.token) : g.Apart g' := by
  apply hinv.apart.forall hg hg'
  intro heq
  apply hne
  rw [heq]

theorem History.mem_live_iff {h : History κ φ} {g : Grant κ φ}
    : g ∈ h.live ↔ g ∈ h.grants ∧ g.token ∉ h.released := by
  simp [live]

theorem History.Inv.eq_of_token_eq {h : History κ φ} (hinv : h.Inv) {g g' : Grant κ φ}
    (hg : g ∈ h.grants) (hg' : g' ∈ h.grants) (heq : g.token = g'.token) : g = g' := by
  by_contra hne
  apply (hinv.apart.forall hg hg' hne).left heq

end Invariant

section Subscribe

namespace History

theorem inv_grant {h : History κ φ} (hinv : h.Inv) {s : State κ φ} {call : Call κ φ} {token : Nat}
    {us : List (UiNotification × UiHandler κ φ)} {vs : List (ViewNotification × ViewHandler κ φ)}
    {g : Grant κ φ}
    (hg : g = ⟨token, call, Listener.entries h.state.ui.nextToken us,
      Listener.entries h.state.view.nextToken vs⟩)
    (hhandlers : call.handlers = some (us, vs))
    (hui : s.ui = (h.state.ui.subscribeAll us).2) (hview : s.view = (h.state.view.subscribeAll vs).2)
    (hgen : h.state.nextGenericToken ≤ s.nextGenericToken)
    (hgenle : s.nextGenericToken ≤ s.ui.nextToken)
    (hdrawn : g.Drawn s) (hfresh : ∀ old ∈ h.grants, old.token ≠ token)
    (hroutes : ∀ t inner, s.genericRoutes.find? t = some inner
      ↔ h.state.genericRoutes.find? t = some inner
        ∨ (call.generic = true ∧ token = t ∧ g.inner = inner))
    : Inv { h with state := s, grants := h.grants ++ [g] } := by
  have hnotReleased : g.token ∉ h.released := by
    intro hreleased
    have hreturned := hinv.released _ hreleased
    rw [hg] at hreturned
    rcases List.mem_map.mp hreturned with ⟨old, hold, heq⟩
    apply hfresh old hold heq
  have hlive : live { h with state := s, grants := h.grants ++ [g] } = h.live ++ [g] := by
    simp [live, hnotReleased]
  have huisubs : s.ui.subs = h.state.ui.subs ++ g.ui := by
    rw [hui, Listener.subscribeAll_eq, hg]
  have hviewsubs : s.view.subs = h.state.view.subs ++ g.view := by
    rw [hview, Listener.subscribeAll_eq, hg]
  have huinext : s.ui.nextToken = h.state.ui.nextToken + g.ui.length := by
    rw [hui, Listener.subscribeAll_eq, hg, Listener.length_entries]
  have hviewnext : s.view.nextToken = h.state.view.nextToken + g.view.length := by
    rw [hview, Listener.subscribeAll_eq, hg, Listener.length_entries]
  refine {
    ui_valid := ?_, view_valid := ?_, ui_count := ?_, view_count := ?_, generic_le := hgenle,
    drawn := ?_, apart := ?_, handlers := ?_, released := ?_, ui_subs := ?_, view_subs := ?_,
    routes := ?_
  }
  . simp only [hui]
    apply Listener.valid_subscribeAll hinv.ui_valid
  . simp only [hview]
    apply Listener.valid_subscribeAll hinv.view_valid
  . simp [huinext, hinv.ui_count]
  . simp [hviewnext, hinv.view_count]
  . intro g' hg'
    rcases List.mem_append.mp hg' with hold | hnew
    . have huile : h.state.ui.nextToken ≤ s.ui.nextToken := by omega
      have hviewle : h.state.view.nextToken ≤ s.view.nextToken := by omega
      apply (hinv.drawn g' hold).mono huile hviewle hgen
    . rw [List.mem_singleton.mp hnew]
      apply hdrawn
  . -- The subscriptions of the new grant have tokens beyond the counters.
    apply List.pairwise_append.mpr
    refine ⟨hinv.apart, List.pairwise_singleton _ _, ?_⟩
    intro old hold new hnew
    rw [List.mem_singleton.mp hnew, hg]
    refine ⟨hfresh old hold, ?_, ?_⟩
    . intro sub hsub sub' hsub'
      have := (hinv.drawn old hold).ui_le sub hsub
      have := Listener.token_of_mem_entries hsub'
      omega
    . intro sub hsub sub' hsub'
      have := (hinv.drawn old hold).view_le sub hsub
      have := Listener.token_of_mem_entries hsub'
      omega
  . intro g' hg'
    rcases List.mem_append.mp hg' with hold | hnew
    . apply hinv.handlers g' hold
    . rw [List.mem_singleton.mp hnew, hg]
      simp only [Listener.map_entries]
      apply hhandlers
  . intro t ht
    have := hinv.released t ht
    simp only [returned, List.map_append, List.mem_append]
    apply Or.inl this
  . rw [hlive, List.flatMap_append, ← hinv.ui_subs]
    simp [huisubs]
  . rw [hlive, List.flatMap_append, ← hinv.view_subs]
    simp [hviewsubs]
  . intro t inner
    rw [hlive]
    simp only [hroutes, hinv.routes, List.mem_append, List.mem_singleton]
    constructor
    . rintro (⟨g', hlive, hrest⟩ | ⟨hgeneric, htoken, hinner⟩)
      . exact ⟨g', Or.inl hlive, hrest⟩
      . refine ⟨g, Or.inr rfl, ?_, ?_, hinner⟩
        . rw [hg]
          apply hgeneric
        . rw [hg]
          apply htoken
    . rintro ⟨g', hlive | rfl, hgeneric, htoken, hinner⟩
      . apply Or.inl ⟨g', hlive, hgeneric, htoken, hinner⟩
      . rw [hg] at hgeneric htoken
        apply Or.inr ⟨hgeneric, htoken, hinner⟩

end History

end Subscribe

section Unsubscribe

namespace State

theorem unsubscribeSingle_view {token : Nat} (hlt : token < viewTokenBase) (s : State κ φ)
    : s.unsubscribeSingle (token + viewTokenBase)
      = ((s.view.unsubscribe token).1, { s with view := (s.view.unsubscribe token).2 }) := by
  simp only [viewTokenBase_eq] at hlt
  have hview : token + viewTokenBase ≥ viewTokenBase
      ∧ token + viewTokenBase < genericTokenBase := by
    simp only [viewTokenBase_eq, genericTokenBase_eq]
    omega
  unfold unsubscribeSingle
  rw [if_pos hview, Nat.add_sub_cancel]

theorem unsubscribeSingle_ui {token : Nat} (hlt : token < viewTokenBase) (s : State κ φ)
    : s.unsubscribeSingle token
      = ((s.ui.unsubscribe token).1, { s with ui := (s.ui.unsubscribe token).2 }) := by
  have hview : ¬ (token ≥ viewTokenBase ∧ token < genericTokenBase) := by
    simp only [viewTokenBase_eq, genericTokenBase_eq] at hlt ⊢
    omega
  unfold unsubscribeSingle
  rw [if_neg hview]

theorem unsubscribe_ui {token : Nat} (hpos : 0 < token) (hlt : token < viewTokenBase)
    (s : State κ φ)
    : s.unsubscribe token
      = (
        if (s.ui.unsubscribe token).1 then ok
        else .error (.notFound "UI/view subscription not found" (toString token)),
        { s with ui := (s.ui.unsubscribe token).2 }
      ) := by
  have hzero : ¬ token = 0 := by omega
  have hgeneric : ¬ token ≥ genericTokenBase := by
    simp only [viewTokenBase_eq, genericTokenBase_eq] at hlt ⊢
    omega
  unfold unsubscribe
  rw [if_neg hzero, if_neg hgeneric, unsubscribeSingle_ui hlt]
  cases (s.ui.unsubscribe token).1 <;> rfl

theorem unsubscribe_view {token : Nat} (hlt : token < viewTokenBase) (s : State κ φ)
    : s.unsubscribe (token + viewTokenBase)
      = (
        if (s.view.unsubscribe token).1 then ok
        else .error (.notFound "UI/view subscription not found" (toString (token + viewTokenBase))),
        { s with view := (s.view.unsubscribe token).2 }
      ) := by
  have hzero : ¬ token + viewTokenBase = 0 := by
    simp only [viewTokenBase_eq]
    omega
  have hgeneric : ¬ token + viewTokenBase ≥ genericTokenBase := by
    simp only [viewTokenBase_eq, genericTokenBase_eq] at hlt ⊢
    omega
  unfold unsubscribe
  rw [if_neg hzero, if_neg hgeneric, unsubscribeSingle_view hlt]
  cases (s.view.unsubscribe token).1 <;> rfl

theorem unsubscribe_generic {token : Nat} (hle : genericTokenBase ≤ token) (s : State κ φ)
    : s.unsubscribe token
      = match s.genericRoutes.find? token with
        | none => (.error (.notFound "UI/view subscription not found" (toString token)), s)
        | some innerTokens =>
          (
            ok,
            innerTokens.foldl (fun s inner => (s.unsubscribeSingle inner).2)
              { s with genericRoutes := s.genericRoutes.erase token }
          ) := by
  have hzero : ¬ token = 0 := by
    simp only [genericTokenBase_eq] at hle
    omega
  cases hroute : s.genericRoutes.find? token with
  | none => simp only [unsubscribe, hzero, ↓reduceIte, ge_iff_le, hle, hroute]
  | some innerTokens => simp only [unsubscribe, hzero, ↓reduceIte, ge_iff_le, hle, hroute]

theorem foldl_unsubscribeSingle {us vs : List Nat} (hus : ∀ token ∈ us, token < viewTokenBase)
    (hvs : ∀ token ∈ vs, token < viewTokenBase) (s : State κ φ)
    : (us ++ vs.map (· + viewTokenBase)).foldl (fun s inner => (s.unsubscribeSingle inner).2) s
      = { s with ui := s.ui.unsubscribeAll us, view := s.view.unsubscribeAll vs } := by
  induction us generalizing s with
  | nil =>
    induction vs generalizing s with
    | nil => rfl
    | cons v vs ih =>
      simp only [List.nil_append, List.map_cons, List.foldl_cons] at ih ⊢
      rw [unsubscribeSingle_view (hvs v List.mem_cons_self)]
      rw [ih fun token htoken => hvs token (List.mem_cons_of_mem v htoken)]
      rfl
  | cons u us ih =>
    simp only [List.cons_append, List.foldl_cons]
    rw [unsubscribeSingle_ui (hus u List.mem_cons_self)]
    rw [ih fun token htoken => hus token (List.mem_cons_of_mem u htoken)]
    rfl

theorem foldl_inner {token : Nat} {call : Call κ φ}
    {us : List (Listener.Subscription UiNotification (UiHandler κ φ))}
    {vs : List (Listener.Subscription ViewNotification (ViewHandler κ φ))}
    (hus : ∀ sub ∈ us, sub.token < viewTokenBase) (hvs : ∀ sub ∈ vs, sub.token < viewTokenBase)
    (s : State κ φ)
    : (Grant.inner ⟨token, call, us, vs⟩).foldl (fun s inner => (s.unsubscribeSingle inner).2) s
      = { s with
          ui := s.ui.unsubscribeAll (us.map Listener.Subscription.token)
          view := s.view.unsubscribeAll (vs.map Listener.Subscription.token) } := by
  have hinner : Grant.inner ⟨token, call, us, vs⟩
      = us.map Listener.Subscription.token
        ++ (vs.map Listener.Subscription.token).map (· + viewTokenBase) := by
    simp [Grant.inner]
  rw [hinner]
  apply foldl_unsubscribeSingle
  . intro token htoken
    rcases List.mem_map.mp htoken with ⟨sub, hsub, rfl⟩
    apply hus sub hsub
  . intro token htoken
    rcases List.mem_map.mp htoken with ⟨sub, hsub, rfl⟩
    apply hvs sub hsub

structure Without (g : Grant κ φ) (s s' : State κ φ) : Prop where
  ui : s'.ui = s.ui.unsubscribeAll (g.ui.map Listener.Subscription.token)
  view : s'.view = s.view.unsubscribeAll (g.view.map Listener.Subscription.token)
  routes : ∀ token, s'.genericRoutes.find? token
    = if token = g.token then none else s.genericRoutes.find? token
  nextGenericToken : s'.nextGenericToken = s.nextGenericToken

end State

namespace History

theorem Inv.mem_ui_subs {h : History κ φ} (hinv : h.Inv) {g : Grant κ φ} (hlive : g ∈ h.live)
    {sub : Listener.Subscription UiNotification (UiHandler κ φ)} (hsub : sub ∈ g.ui)
    : sub ∈ h.state.ui.subs := by
  rw [hinv.ui_subs]
  apply List.mem_flatMap.mpr ⟨g, hlive, hsub⟩

theorem Inv.mem_view_subs {h : History κ φ} (hinv : h.Inv) {g : Grant κ φ} (hlive : g ∈ h.live)
    {sub : Listener.Subscription ViewNotification (ViewHandler κ φ)} (hsub : sub ∈ g.view)
    : sub ∈ h.state.view.subs := by
  rw [hinv.view_subs]
  apply List.mem_flatMap.mpr ⟨g, hlive, hsub⟩

theorem Inv.find?_of_not_generic {h : History κ φ} (hinv : h.Inv) {g : Grant κ φ}
    (hg : g ∈ h.grants) (hgeneric : g.call.generic = false)
    : h.state.genericRoutes.find? g.token = none := by
  cases hfind : h.state.genericRoutes.find? g.token with
  | none => rfl
  | some inner =>
    rcases (hinv.routes _ _).mp hfind with ⟨g', hlive, hgeneric', heq, _⟩
    have hg' := (mem_live_iff.mp hlive).left
    rw [hinv.eq_of_token_eq hg' hg heq, hgeneric] at hgeneric'
    cases hgeneric'

theorem unsubscribe_of_live {h : History κ φ} (hinv : h.Inv) (hrange : h.state.InRange)
    {g : Grant κ φ} (hlive : g ∈ h.live)
    : ∃ s, h.state.unsubscribe g.token = (ok, s) ∧ State.Without g h.state s := by
  have hg := (mem_live_iff.mp hlive).left
  have hui : ∀ sub ∈ g.ui, sub ∈ h.state.ui.subs := fun _ => hinv.mem_ui_subs hlive
  have hview : ∀ sub ∈ g.view, sub ∈ h.state.view.subs := fun _ => hinv.mem_view_subs hlive
  have hnone := hinv.find?_of_not_generic hg
  have hroute := (hinv.routes g.token g.inner).mpr
  simp only [State.InRange] at hrange
  cases hinv.drawn g hg with
  | ui call sub hgeneric hpos hle =>
    rw [State.unsubscribe_ui hpos (by omega)]
    have hmem := hui sub List.mem_cons_self
    have hremoved : (h.state.ui.unsubscribe sub.token).1 = true := by
      rw [Listener.unsubscribe_of_mem hinv.ui_valid hmem]
    rw [if_pos hremoved]
    refine ⟨_, rfl, rfl, rfl, ?_, rfl⟩
    intro token
    split
    . next heq =>
      rw [heq]
      apply hnone hgeneric
    . rfl
  | view call sub hgeneric hpos hle =>
    rw [State.unsubscribe_view (by omega)]
    have hmem := hview sub List.mem_cons_self
    have hremoved : (h.state.view.unsubscribe sub.token).1 = true := by
      rw [Listener.unsubscribe_of_mem hinv.view_valid hmem]
    rw [if_pos hremoved]
    refine ⟨_, rfl, rfl, rfl, ?_, rfl⟩
    intro token
    split
    . next heq =>
      rw [heq]
      apply hnone hgeneric
    . rfl
  | generic call n us vs hgeneric hpos hle hus hvs =>
    rw [State.unsubscribe_generic (Nat.le_add_right _ _), hroute ⟨_, hlive, hgeneric, rfl, rfl⟩]
    refine ⟨_, rfl, ?_⟩
    rw [State.foldl_inner]
    . refine ⟨rfl, rfl, ?_, rfl⟩
      intro token
      apply OrderedMap.find?_erase
    . intro sub hsub
      have := hus sub hsub
      omega
    . intro sub hsub
      have := hvs sub hsub
      omega

theorem unsubscribe_of_released {h : History κ φ} (hinv : h.Inv) (hrange : h.state.InRange)
    {g : Grant κ φ} (hg : g ∈ h.grants) (hreleased : g.token ∈ h.released)
    : ∃ e, h.state.unsubscribe g.token = (.error e, h.state) := by
  -- Whatever is still there is from a grant with another token.
  have hother : ∀ g' ∈ h.live, g'.Apart g := by
    intro g' hlive
    have hg' := mem_live_iff.mp hlive
    apply hinv.apart_of_ne hg'.left hg
    intro heq
    apply hg'.right
    rw [heq]
    apply hreleased
  simp only [State.InRange] at hrange
  cases hinv.drawn g hg with
  | ui call sub hgeneric hpos hle =>
    have hnot : ∀ sub' ∈ h.state.ui.subs, sub'.token ≠ sub.token := by
      intro sub' hsub'
      rw [hinv.ui_subs] at hsub'
      rcases List.mem_flatMap.mp hsub' with ⟨g', hlive, hsub'⟩
      apply (hother g' hlive).right.left sub' hsub' sub List.mem_cons_self
    rw [State.unsubscribe_ui hpos (by omega), Listener.unsubscribe_of_not_mem hnot]
    exact ⟨_, rfl⟩
  | view call sub hgeneric hpos hle =>
    have hnot : ∀ sub' ∈ h.state.view.subs, sub'.token ≠ sub.token := by
      intro sub' hsub'
      rw [hinv.view_subs] at hsub'
      rcases List.mem_flatMap.mp hsub' with ⟨g', hlive, hsub'⟩
      apply (hother g' hlive).right.right sub' hsub' sub List.mem_cons_self
    rw [State.unsubscribe_view (by omega), Listener.unsubscribe_of_not_mem hnot]
    exact ⟨_, rfl⟩
  | generic call n us vs hgeneric hpos hle hus hvs =>
    have hnone : h.state.genericRoutes.find? (genericTokenBase + n) = none := by
      cases hfind : h.state.genericRoutes.find? (genericTokenBase + n) with
      | none => rfl
      | some inner =>
        rcases (hinv.routes _ _).mp hfind with ⟨g', hlive, _, heq, _⟩
        exact absurd heq (hother g' hlive).left
    rw [State.unsubscribe_generic (Nat.le_add_right _ _), hnone]
    exact ⟨_, rfl⟩

end History

end Unsubscribe

section Release

theorem filter_flatMap_eq {α : Type u} {β : Type v} {l : List α} {f : α → List β} {p : β → Bool}
    {q : α → Bool} (h : ∀ a ∈ l, (f a).filter p = if q a then f a else [])
    : (l.flatMap f).filter p = (l.filter q).flatMap f := by
  induction l with
  | nil => rfl
  | cons a l ih =>
    have hrest := ih fun b hb => h b (List.mem_cons_of_mem a hb)
    rw [List.flatMap_cons, List.filter_append, h a List.mem_cons_self, hrest]
    cases hq : q a with
    | false => simp [hq]
    | true => simp [hq]

namespace History

theorem filter_subs_eq {γ η : Type} {f : Grant κ φ → List (Listener.Subscription γ η)}
    {grants : List (Grant κ φ)} {g : Grant κ φ} (hsame : ∀ g' ∈ grants, g'.token = g.token → g' = g)
    (hother : ∀ g' ∈ grants, g'.token ≠ g.token → ∀ sub' ∈ f g', ∀ sub ∈ f g,
      sub'.token ≠ sub.token)
    : (grants.flatMap f).filter (·.token ∉ (f g).map Listener.Subscription.token)
      = (grants.filter (·.token ≠ g.token)).flatMap f := by
  apply filter_flatMap_eq
  intro g' hg'
  by_cases heq : g'.token = g.token
  . rw [hsame g' hg' heq]
    simp only [ne_eq, not_true_eq_false, decide_false, Bool.false_eq_true, if_false]
    apply List.filter_eq_nil_iff.mpr
    intro sub hsub
    have hmem : sub.token ∈ (f g).map Listener.Subscription.token := List.mem_map_of_mem hsub
    simp [hmem]
  . simp only [ne_eq, heq, not_false_eq_true, decide_true, if_true]
    apply List.filter_eq_self.mpr
    intro sub' hsub'
    simp only [List.mem_map, not_exists, not_and, decide_eq_true_eq]
    intro sub hsub htoken
    apply hother g' hg' heq sub' hsub' sub hsub htoken.symm

theorem live_release (h : History κ φ) (s : State κ φ) (token : Nat)
    : live { h with state := s, released := h.released ++ [token] }
      = h.live.filter (·.token ≠ token) := by
  simp only [live, List.filter_filter]
  apply List.filter_congr
  intro g _
  by_cases heq : g.token = token <;> simp [heq]

theorem Inv.ui_subs_without {h : History κ φ} (hinv : h.Inv) {g : Grant κ φ} (hlive : g ∈ h.live)
    : h.state.ui.subs.filter (·.token ∉ g.ui.map Listener.Subscription.token)
      = (h.live.filter (·.token ≠ g.token)).flatMap Grant.ui := by
  have hg := (mem_live_iff.mp hlive).left
  rw [hinv.ui_subs]
  apply filter_subs_eq
  . intro g' hg' heq
    apply hinv.eq_of_token_eq (mem_live_iff.mp hg').left hg heq
  . intro g' hg' hne
    apply (hinv.apart_of_ne (mem_live_iff.mp hg').left hg hne).right.left

theorem Inv.view_subs_without {h : History κ φ} (hinv : h.Inv) {g : Grant κ φ} (hlive : g ∈ h.live)
    : h.state.view.subs.filter (·.token ∉ g.view.map Listener.Subscription.token)
      = (h.live.filter (·.token ≠ g.token)).flatMap Grant.view := by
  have hg := (mem_live_iff.mp hlive).left
  rw [hinv.view_subs]
  apply filter_subs_eq
  . intro g' hg' heq
    apply hinv.eq_of_token_eq (mem_live_iff.mp hg').left hg heq
  . intro g' hg' hne
    apply (hinv.apart_of_ne (mem_live_iff.mp hg').left hg hne).right.right

theorem inv_release {h : History κ φ} (hinv : h.Inv) {g : Grant κ φ} (hlive : g ∈ h.live)
    {s : State κ φ} (hwithout : State.Without g h.state s)
    : Inv { h with state := s, released := h.released ++ [g.token] } := by
  have hg := (mem_live_iff.mp hlive).left
  have hui := Listener.unsubscribeAll_eq hinv.ui_valid (g.ui.map Listener.Subscription.token)
  have hview := Listener.unsubscribeAll_eq hinv.view_valid (g.view.map Listener.Subscription.token)
  rw [← hwithout.ui] at hui
  rw [← hwithout.view] at hview
  refine {
    ui_valid := ?_, view_valid := ?_, ui_count := ?_, view_count := ?_, generic_le := ?_,
    drawn := ?_, apart := hinv.apart, handlers := hinv.handlers, released := ?_, ui_subs := ?_,
    view_subs := ?_, routes := ?_
  }
  . simp only [hwithout.ui]
    apply Listener.valid_unsubscribeAll hinv.ui_valid
  . simp only [hwithout.view]
    apply Listener.valid_unsubscribeAll hinv.view_valid
  . simp only [hui.right]
    apply hinv.ui_count
  . simp only [hview.right]
    apply hinv.view_count
  . simp only [hui.right, hwithout.nextGenericToken]
    apply hinv.generic_le
  . intro g' hg'
    apply (hinv.drawn g' hg').mono (by rw [hui.right]) (by rw [hview.right])
      (by rw [hwithout.nextGenericToken])
  . intro token htoken
    rcases List.mem_append.mp htoken with hold | hnew
    . apply hinv.released token hold
    . rw [List.mem_singleton.mp hnew]
      apply List.mem_map_of_mem hg
  . rw [live_release, ← hinv.ui_subs_without hlive]
    apply hui.left
  . rw [live_release, ← hinv.view_subs_without hlive]
    apply hview.left
  . intro token inner
    rw [live_release]
    simp only [hwithout.routes, List.mem_filter, decide_eq_true_eq]
    by_cases heq : token = g.token
    . rw [if_pos heq]
      simp only [reduceCtorEq, false_iff, not_exists, not_and]
      rintro g' ⟨_, hne⟩ _ htoken
      exact absurd (htoken.trans heq) hne
    . rw [if_neg heq, hinv.routes]
      constructor
      . rintro ⟨g', hlive', hgeneric, rfl, hinner⟩
        exact ⟨g', ⟨hlive', heq⟩, hgeneric, rfl, hinner⟩
      . rintro ⟨g', ⟨hlive', _⟩, hrest⟩
        exact ⟨g', hlive', hrest⟩

end History

end Release

section Run

namespace History

theorem inv_initial : (({} : History κ φ)).Inv where
  ui_valid := Listener.valid_initial
  view_valid := Listener.valid_initial
  ui_count := rfl
  view_count := rfl
  generic_le := Nat.le_refl 0
  drawn := by simp
  apart := List.Pairwise.nil
  handlers := by simp
  released := by simp
  ui_subs := rfl
  view_subs := rfl
  routes := by simp [live]

theorem Inv.fresh {h : History κ φ} (hinv : h.Inv) (hrange : h.state.InRange) {token : Nat}
    (htoken : token = h.state.ui.nextToken + 1
      ∨ token = h.state.view.nextToken + 1 + viewTokenBase
      ∨ token = genericTokenBase + (h.state.nextGenericToken + 1))
    : ∀ old ∈ h.grants, old.token ≠ token := by
  intro old hold
  simp only [State.InRange, viewTokenBase_eq, genericTokenBase_eq] at hrange htoken
  cases hinv.drawn old hold with
  | ui call sub hgeneric hpos hle =>
    simp only
    omega
  | view call sub hgeneric hpos hle =>
    simp only [viewTokenBase_eq]
    omega
  | generic call n us vs hgeneric hpos hle hus hvs =>
    simp only [genericTokenBase_eq]
    omega

theorem drop_subscribeAll {γ η : Type} (l : Listener γ η) (hs : List (γ × η))
    : (l.subscribeAll hs).2.subs.drop l.subs.length = Listener.entries l.nextToken hs := by
  rw [Listener.subscribeAll_eq, List.drop_left]

theorem inv_step {h : History κ φ} (hinv : h.Inv) (hrange : h.state.InRange) {call : Call κ φ}
    (hreturned : h.Returned call) : (h.step call).Inv := by
  have hperformed := performed h.state call
  have hle := hinv.generic_le
  unfold step
  generalize call.perform h.state = r at hperformed
  cases hperformed with
  | rejected call e => apply hinv
  | ui call handler hhandlers hgeneric =>
    simp only [drop_subscribeAll, List.drop_length]
    let s := { h.state with ui := (h.state.ui.subscribeAll [handler]).2 }
    apply inv_grant (s := s) hinv rfl hhandlers rfl rfl (Nat.le_refl _)
    . simp only [s, Listener.nextToken_subscribeAll]
      omega
    . apply Grant.Drawn.ui call ⟨_, _, _⟩ hgeneric
      . simp only
        omega
      . simp [s, Listener.nextToken_subscribeAll]
    . apply hinv.fresh hrange (Or.inl rfl)
    . simp [hgeneric, s]
  | view call handler hhandlers hgeneric =>
    simp only [drop_subscribeAll, List.drop_length]
    let s := { h.state with view := (h.state.view.subscribeAll [handler]).2 }
    apply inv_grant (s := s) hinv rfl hhandlers rfl rfl (Nat.le_refl _) hle
    . apply Grant.Drawn.view call ⟨_, _, _⟩ hgeneric
      . simp only
        omega
      . simp [s, Listener.nextToken_subscribeAll]
    . apply hinv.fresh hrange (Or.inr (Or.inl rfl))
    . simp [hgeneric, s]
  | generic call callback hhandlers hgeneric =>
    simp only [State.onEvent, State.makeGenericToken, subscribed, drop_subscribeAll]
    have hfresh := hinv.fresh hrange (Or.inr (Or.inr rfl))
    have hnone : h.state.genericRoutes.find?
        (genericTokenBase + (h.state.nextGenericToken + 1)) = none := by
      cases hfind : h.state.genericRoutes.find?
          (genericTokenBase + (h.state.nextGenericToken + 1)) with
      | none => rfl
      | some inner =>
        rcases (hinv.routes _ _).mp hfind with ⟨g, hlive, _, heq, _⟩
        exact absurd heq (hfresh g (mem_live_iff.mp hlive).left)
    apply inv_grant hinv rfl hhandlers rfl rfl
    . simp
    . simp only [Listener.nextToken_subscribeAll, State.eventUiHandlers, State.uiEvents, List.length_map,
        List.length_cons, List.length_nil]
      omega
    . apply Grant.Drawn.generic call _ _ _ hgeneric
      . omega
      . apply Nat.le_refl
      . intro sub hsub
        simp only [Listener.nextToken_subscribeAll]
        apply (Listener.token_of_mem_entries hsub).right
      . intro sub hsub
        simp only [Listener.nextToken_subscribeAll]
        apply (Listener.token_of_mem_entries hsub).right
    . apply hfresh
    . intro t inner
      simp only [OrderedMap.emplace, hnone, Option.isSome_none, Bool.false_eq_true, if_false,
        OrderedMap.find?_insert]
      have hinner : ∀ us vs, Grant.inner ⟨genericTokenBase + (h.state.nextGenericToken + 1), call,
          us, vs⟩ = us.map Listener.Subscription.token
            ++ (vs.map Listener.Subscription.token).map (· + viewTokenBase) := by
        intro us vs
        simp [Grant.inner]
      rw [hinner, Listener.subscribeAll_eq, Listener.subscribeAll_eq]
      split
      . next heq =>
        rw [heq, hnone]
        simp [hgeneric]
      . next hne =>
        simp [Ne.symm hne]
  | unsubscribe token =>
    rcases List.mem_map.mp hreturned with ⟨g, hg, rfl⟩
    by_cases hreleased : g.token ∈ h.released
    . rcases unsubscribe_of_released hinv hrange hg hreleased with ⟨e, heq⟩
      rw [heq]
      apply hinv
    . have hlive := mem_live_iff.mpr ⟨hg, hreleased⟩
      rcases unsubscribe_of_live hinv hrange hlive with ⟨s, heq, hwithout⟩
      rw [heq]
      apply inv_release hinv hlive hwithout

theorem grants_step (h : History κ φ) (call : Call κ φ) : h.grants <+: (h.step call).grants := by
  unfold step
  generalize call.perform h.state = r
  split
  split
  . apply List.prefix_append
  . apply List.prefix_refl
  . apply List.prefix_refl

theorem grants_run (h : History κ φ) (calls : List (Call κ φ))
    : h.grants <+: (Machine.run step h calls).grants := by
  induction calls generalizing h with
  | nil => apply List.prefix_refl
  | cons call calls ih => apply (grants_step h call).trans (ih (h.step call))

def Few (h : History κ φ) : Prop :=
  (h.grants.flatMap Grant.ui).length < viewTokenBase
    ∧ (h.grants.flatMap Grant.view).length < viewTokenBase

theorem Few.of_prefix {h h' : History κ φ} (hfew : h'.Few) (hgrows : h.grants <+: h'.grants)
    : h.Few := by
  rcases hgrows with ⟨rest, heq⟩
  simp only [Few, ← heq, List.flatMap_append, List.length_append] at hfew
  simp only [Few]
  omega

theorem inv_run {h : History κ φ} (hinv : h.Inv) (calls : List (Call κ φ))
    (hcalls : Machine.Guarded step Returned h calls) (hfew : (Machine.run step h calls).Few)
    : (Machine.run step h calls).Inv := by
  induction calls generalizing h with
  | nil => apply hinv
  | cons call calls ih =>
    have hrange : h.state.InRange := by
      unfold State.InRange
      rw [hinv.ui_count, hinv.view_count]
      apply hfew.of_prefix (grants_run h (call :: calls))
    apply ih (inv_step hinv hrange hcalls.left) hcalls.right hfew

end History

end Run

section Exact

theorem State.unsubscribe_of_not_ok {s : State κ φ} {token : Nat}
    (hfail : (s.unsubscribe token).1 ≠ ok) : (s.unsubscribe token).2 = s := by
  unfold unsubscribe at hfail ⊢
  split
  . rfl
  . next hzero =>
    rw [if_neg hzero] at hfail
    split
    . next hgeneric =>
      rw [if_pos hgeneric] at hfail
      cases hfind : s.genericRoutes.find? token with
      | none => rfl
      | some inner =>
        rw [hfind] at hfail
        simp at hfail
    . next hgeneric =>
      rw [if_neg hgeneric] at hfail
      have hsame : (s.unsubscribeSingle token).1 = false → (s.unsubscribeSingle token).2 = s := by
        intro hremoved
        unfold unsubscribeSingle at hremoved ⊢
        split at hremoved
        . next hview =>
          rw [if_pos hview]
          simp only [Listener.unsubscribe_of_not_removed hremoved]
        . next hview =>
          rw [if_neg hview]
          simp only [Listener.unsubscribe_of_not_removed hremoved]
      cases hremoved : (s.unsubscribeSingle token).1 with
      | false =>
        simp only [hremoved, Bool.not_false, if_true]
        apply hsame hremoved
      | true =>
        simp [hremoved] at hfail

theorem Call.length_handlers {call : Call κ φ} (hgeneric : call.generic = true)
    {us : List (UiNotification × UiHandler κ φ)} {vs : List (ViewNotification × ViewHandler κ φ)}
    (hhandlers : call.handlers = some (us, vs)) : us.length = 8 ∧ vs.length = 5 := by
  cases call with
  | onEvent callback =>
    cases callback with
    | none => cases hhandlers
    | some callback =>
      cases hhandlers
      exact ⟨rfl, rfl⟩
  | onEventFiltered filter callback =>
    cases filter with
    | none => cases hhandlers
    | some filter =>
      cases callback with
      | none => cases hhandlers
      | some callback =>
        cases hhandlers
        exact ⟨rfl, rfl⟩
  | _ => cases hgeneric

namespace History

/--
What a token denotes are the subscriptions its grant was made with: for a call that is not generic
the one handler it has passed to one of the listeners.
-/
structure RoutedExactly (h : History κ φ) : Prop where
  returned_nodup : h.returned.Nodup
  handlers : ∀ g ∈ h.grants, g.call.handlers = some (
    g.ui.map fun sub => (sub.notificationCode, sub.handler),
    g.view.map fun sub => (sub.notificationCode, sub.handler)
  )
  generic : ∀ g ∈ h.grants, g.call.generic = true → g.ui.length = 8 ∧ g.view.length = 5
  ui_subs : h.state.ui.subs = h.live.flatMap Grant.ui
  view_subs : h.state.view.subs = h.live.flatMap Grant.view
  ui_hooked : h.state.ui.hooked = true ↔ h.state.ui.subs ≠ []
  view_hooked : h.state.view.hooked = true ↔ h.state.view.subs ≠ []
  unsubscribe_ok : ∀ token ∈ h.returned,
    (h.state.unsubscribe token).1 = ok ↔ token ∉ h.released
  unsubscribe_removes : ∀ g ∈ h.grants, g.token ∉ h.released →
    (h.state.unsubscribe g.token).2.ui.subs
        = h.state.ui.subs.filter (·.token ∉ g.ui.map Listener.Subscription.token)
      ∧ (h.state.unsubscribe g.token).2.view.subs
        = h.state.view.subs.filter (·.token ∉ g.view.map Listener.Subscription.token)
  unsubscribe_fails : ∀ token, (h.state.unsubscribe token).1 ≠ ok →
    (h.state.unsubscribe token).2 = h.state

theorem routedExactly_run (calls : List (Call κ φ)) (hknown : KnownTokens calls)
    (hui : ((run calls).grants.flatMap Grant.ui).length < viewTokenBase)
    (hview : ((run calls).grants.flatMap Grant.view).length < viewTokenBase)
    : (run calls).RoutedExactly := by
  have hinv : (run calls).Inv := inv_run inv_initial calls hknown ⟨hui, hview⟩
  have hrange : (run calls).state.InRange := by
    unfold State.InRange
    rw [hinv.ui_count, hinv.view_count]
    exact ⟨hui, hview⟩
  refine {
    returned_nodup := ?_, handlers := hinv.handlers, generic := ?_, ui_subs := hinv.ui_subs,
    view_subs := hinv.view_subs, ui_hooked := hinv.ui_valid.hooked_iff,
    view_hooked := hinv.view_valid.hooked_iff, unsubscribe_ok := ?_, unsubscribe_removes := ?_,
    unsubscribe_fails := fun token => State.unsubscribe_of_not_ok
  }
  . apply List.pairwise_map.mpr
    apply hinv.apart.imp
    intro g g' hapart
    apply hapart.left
  . intro g hg hgeneric
    have hlength := Call.length_handlers hgeneric (hinv.handlers g hg)
    simp only [List.length_map] at hlength
    apply hlength
  . intro token hreturned
    rcases List.mem_map.mp hreturned with ⟨g, hg, rfl⟩
    constructor
    . intro hok hreleased
      rcases unsubscribe_of_released hinv hrange hg hreleased with ⟨e, heq⟩
      rw [heq] at hok
      cases hok
    . intro hreleased
      rcases unsubscribe_of_live hinv hrange (mem_live_iff.mpr ⟨hg, hreleased⟩) with ⟨s, heq, _⟩
      rw [heq]
  . intro g hg hreleased
    rcases unsubscribe_of_live hinv hrange (mem_live_iff.mpr ⟨hg, hreleased⟩)
      with ⟨s, heq, hwithout⟩
    rw [heq]
    simp only [hwithout.ui, hwithout.view]
    exact ⟨
      (Listener.unsubscribeAll_eq hinv.ui_valid _).left,
      (Listener.unsubscribeAll_eq hinv.view_valid _).left
    ⟩

section TwoSubscriptions

def twoSubscriptions : List (Call Nat Nat) :=
  [
    .onReadyToRun (some 0),
    .onEvent (some 1),
    .onViewCreated (some 2),
    .unsubscribe (genericTokenBase + 1),
    .onEventFiltered (some 0) (some 1)
  ]

theorem routedExactly_twoSubscriptions : (run twoSubscriptions).RoutedExactly := by
  apply routedExactly_run
  . refine ⟨trivial, trivial, trivial, ?_, trivial, trivial⟩
    show genericTokenBase + 1 ∈ returned _
    decide
  . decide
  . decide

end TwoSubscriptions

end History

end Exact

end Ui
end Idax
