import Idax.Library.Snapshot
import Idax.Ui.Routing

/-!
What `unsubscribe` of `ida::ui` takes away for good: the subscriptions that a token was returned for
do not come back, whatever tokens are unsubscribed and in which order.
-/

namespace Idax
namespace Ui

variable {κ φ : Type}

section Dispatch

inductive Notification where
  | ui (code : UiNotification)
  | view (code : ViewNotification)
  deriving DecidableEq, Repr

inductive Subscription (κ φ : Type) where
  | ui (sub : Listener.Subscription UiNotification (UiHandler κ φ))
  | view (sub : Listener.Subscription ViewNotification (ViewHandler κ φ))

inductive SubscriptionKey where
  | ui (token : Nat)
  | view (token : Nat)
  deriving DecidableEq, Repr

def Subscription.key : Subscription κ φ → SubscriptionKey
  | .ui sub => .ui sub.token
  | .view sub => .view sub.token

def Grant.keys (g : Grant κ φ) : List SubscriptionKey :=
  g.ui.map (.ui ·.token) ++ g.view.map (.view ·.token)

def Call.released (call : Call κ φ) (h : History κ φ) : List SubscriptionKey :=
  match call with
  | .unsubscribe token =>
    match (h.state.unsubscribe token).1 with
    | .ok _ => (h.grants.filter (·.token = token)).flatMap Grant.keys
    | .error _ => []
  | _ => []

def State.matched (s : State κ φ) : Notification → List (Subscription κ φ)
  | .ui code => (s.ui.subs.filter (·.notificationCode = code)).map .ui
  | .view code => (s.view.subs.filter (·.notificationCode = code)).map .view

/--
`on_event` of the two listeners, which hand their handlers a copy of the arguments each.
-/
def dispatcher (κ φ : Type)
    : Snapshot.Model (History κ φ) (Call κ φ) Notification (Subscription κ φ) SubscriptionKey Unit where
  perform := fun call h => h.step call
  removed := Call.released
  matched := fun n h => h.state.matched n
  key := Subscription.key
  stops := fun _ _ => false

end Dispatch

section Follows

namespace State

structure Follows (s s' : State κ φ) : Prop where
  ui : s.ui.Follows s'.ui
  view : s.view.Follows s'.view

structure Drops (s s' : State κ φ) : Prop where
  follows : s.Follows s'
  ui_nextToken : s'.ui.nextToken = s.ui.nextToken
  view_nextToken : s'.view.nextToken = s.view.nextToken
  nextGenericToken : s'.nextGenericToken = s.nextGenericToken
  routes : ∀ t inner, s'.genericRoutes.find? t = some inner → s.genericRoutes.find? t = some inner

theorem drops_refl {s : State κ φ} (hui : s.ui.Valid) (hview : s.view.Valid) : s.Drops s where
  follows := ⟨Listener.follows_refl hui, Listener.follows_refl hview⟩
  ui_nextToken := rfl
  view_nextToken := rfl
  nextGenericToken := rfl
  routes := fun _ _ hfind => hfind

theorem Drops.trans {s s' s'' : State κ φ} (h : s.Drops s') (h' : s'.Drops s'') : s.Drops s'' where
  follows := ⟨h.follows.ui.trans h'.follows.ui, h.follows.view.trans h'.follows.view⟩
  ui_nextToken := by rw [h'.ui_nextToken, h.ui_nextToken]
  view_nextToken := by rw [h'.view_nextToken, h.view_nextToken]
  nextGenericToken := by rw [h'.nextGenericToken, h.nextGenericToken]
  routes := fun t inner hfind => h.routes t inner (h'.routes t inner hfind)

theorem drops_unsubscribeSingle {s : State κ φ} (hui : s.ui.Valid) (hview : s.view.Valid)
    (token : Nat) : s.Drops (s.unsubscribeSingle token).2 := by
  unfold unsubscribeSingle
  split
  . refine ⟨⟨?_, ?_⟩, rfl, ?_, rfl, fun _ _ hfind => hfind⟩
    . apply Listener.follows_refl hui
    . apply Listener.follows_unsubscribe hview
    . apply Listener.nextToken_unsubscribe hview
  . refine ⟨⟨?_, ?_⟩, ?_, rfl, rfl, fun _ _ hfind => hfind⟩
    . apply Listener.follows_unsubscribe hui
    . apply Listener.follows_refl hview
    . apply Listener.nextToken_unsubscribe hui

theorem drops_foldl {s : State κ φ} (hui : s.ui.Valid) (hview : s.view.Valid) (tokens : List Nat)
    : s.Drops (tokens.foldl (fun s inner => (s.unsubscribeSingle inner).2) s) := by
  induction tokens generalizing s with
  | nil => apply drops_refl hui hview
  | cons token tokens ih =>
    have hfirst := drops_unsubscribeSingle hui hview token
    apply hfirst.trans
    apply ih hfirst.follows.ui.valid hfirst.follows.view.valid

theorem drops_erase {s : State κ φ} (hui : s.ui.Valid) (hview : s.view.Valid) (token : Nat)
    : s.Drops { s with genericRoutes := s.genericRoutes.erase token } where
  follows := ⟨Listener.follows_refl hui, Listener.follows_refl hview⟩
  ui_nextToken := rfl
  view_nextToken := rfl
  nextGenericToken := rfl
  routes := by
    intro t inner hfind
    rw [OrderedMap.find?_erase] at hfind
    split at hfind
    . cases hfind
    . apply hfind

theorem drops_unsubscribe {s : State κ φ} (hui : s.ui.Valid) (hview : s.view.Valid) (token : Nat)
    : s.Drops (s.unsubscribe token).2 := by
  unfold unsubscribe
  split
  . apply drops_refl hui hview
  . split
    . cases s.genericRoutes.find? token with
      | none => apply drops_refl hui hview
      | some inner =>
        have herased := drops_erase hui hview token
        apply herased.trans
        apply drops_foldl herased.follows.ui.valid herased.follows.view.valid inner
    . have hsingle := drops_unsubscribeSingle hui hview token
      simp only
      split <;> apply hsingle

theorem follows_perform {s : State κ φ} (hui : s.ui.Valid) (hview : s.view.Valid)
    (call : Call κ φ) : s.Follows (call.perform s).2 := by
  have hperformed := performed s call
  generalize call.perform s = r at hperformed
  cases hperformed with
  | rejected call e => exact ⟨Listener.follows_refl hui, Listener.follows_refl hview⟩
  | ui call handler hhandlers hgeneric =>
    exact ⟨Listener.follows_subscribeAll hui _, Listener.follows_refl hview⟩
  | view call handler hhandlers hgeneric =>
    exact ⟨Listener.follows_refl hui, Listener.follows_subscribeAll hview _⟩
  | generic call callback hhandlers hgeneric =>
    exact ⟨
      Listener.follows_subscribeAll hui (eventUiHandlers callback),
      Listener.follows_subscribeAll hview (eventViewHandlers callback)
    ⟩
  | unsubscribe token => apply (drops_unsubscribe hui hview token).follows

end State

end Follows

section Registered

namespace History

structure Registered (h : History κ φ) : Prop where
  ui_valid : h.state.ui.Valid
  view_valid : h.state.view.Valid
  inRange : h.state.InRange
  drawn : ∀ g ∈ h.grants, g.Drawn h.state
  routes : ∀ g ∈ h.grants, g.call.generic = true → ∀ inner,
    h.state.genericRoutes.find? g.token = some inner → inner = g.inner
  routes_le : ∀ t inner, h.state.genericRoutes.find? t = some inner →
    t ≤ genericTokenBase + h.state.nextGenericToken

def BelowBase (h : History κ φ) (call : Call κ φ) : Prop :=
  ∀ us vs, call.handlers = some (us, vs) →
    h.state.ui.nextToken + us.length < viewTokenBase
      ∧ h.state.view.nextToken + vs.length < viewTokenBase

def Gone (h : History κ φ) : SubscriptionKey → Prop
  | .ui token => h.state.ui.Gone token
  | .view token => h.state.view.Gone token

theorem Gone.follows {h h' : History κ φ} {key : SubscriptionKey} (hgone : h.Gone key)
    (hfollows : h.state.Follows h'.state) : h'.Gone key := by
  cases key with
  | ui token => apply Listener.Gone.follows hgone hfollows.ui
  | view token => apply Listener.Gone.follows hgone hfollows.view

theorem Registered.extend {h : History κ φ} (hreg : h.Registered) {s : State κ φ}
    (new : List (Grant κ φ)) (released : List Nat)
    (hfollows : h.state.Follows s) (hrange : s.InRange)
    (hgen : h.state.nextGenericToken ≤ s.nextGenericToken)
    (hdrawn : ∀ g ∈ new, g.Drawn s)
    (hroutes : ∀ g ∈ h.grants ++ new, g.call.generic = true → ∀ inner,
      s.genericRoutes.find? g.token = some inner → inner = g.inner)
    (hroutesle : ∀ t inner, s.genericRoutes.find? t = some inner →
      t ≤ genericTokenBase + s.nextGenericToken)
    : Registered { state := s, grants := h.grants ++ new, released := released } where
  ui_valid := hfollows.ui.valid
  view_valid := hfollows.view.valid
  inRange := hrange
  drawn := by
    intro g hg
    rcases List.mem_append.mp hg with hold | hnew
    . apply (hreg.drawn g hold).mono hfollows.ui.nextToken_le hfollows.view.nextToken_le hgen
    . apply hdrawn g hnew
  routes := hroutes
  routes_le := hroutesle

theorem Registered.find?_emplace_next {h : History κ φ} (hreg : h.Registered) (inner : List Nat)
    (t : Nat)
    : (h.state.genericRoutes.emplace (genericTokenBase + (h.state.nextGenericToken + 1)) inner).find? t
        = if t = genericTokenBase + (h.state.nextGenericToken + 1) then some inner
          else h.state.genericRoutes.find? t := by
  have hnone : h.state.genericRoutes.find? (genericTokenBase + (h.state.nextGenericToken + 1))
      = none := by
    cases hfind : h.state.genericRoutes.find?
        (genericTokenBase + (h.state.nextGenericToken + 1)) with
    | none => rfl
    | some inner =>
      have := hreg.routes_le _ inner hfind
      omega
  simp [OrderedMap.emplace, hnone]

theorem Registered.afterUnsubscribe {h : History κ φ} (hreg : h.Registered) (token : Nat)
    (released : List Nat)
    : Registered
        { state := (h.state.unsubscribe token).2, grants := h.grants, released := released } := by
  have hdrops := State.drops_unsubscribe hreg.ui_valid hreg.view_valid token
  rw [← List.append_nil h.grants]
  apply hreg.extend [] released hdrops.follows
  . unfold State.InRange
    rw [hdrops.ui_nextToken, hdrops.view_nextToken]
    apply hreg.inRange
  . rw [hdrops.nextGenericToken]
  . simp
  . intro g hg hgeneric inner hfind
    rw [List.append_nil] at hg
    apply hreg.routes g hg hgeneric inner
    apply hdrops.routes _ _ hfind
  . intro t inner hfind
    rw [hdrops.nextGenericToken]
    apply hreg.routes_le t inner
    apply hdrops.routes t inner hfind

theorem Registered.step {h : History κ φ} (hreg : h.Registered) {call : Call κ φ}
    (hbelow : h.BelowBase call) : (h.step call).Registered := by
  have hfollows := State.follows_perform hreg.ui_valid hreg.view_valid call
  have hperformed := performed h.state call
  unfold History.step
  generalize call.perform h.state = r at hperformed hfollows
  cases hperformed with
  | rejected call e =>
    apply hreg
  | ui call handler hhandlers hgeneric =>
    have hlt := hbelow _ _ hhandlers
    simp only [drop_subscribeAll, List.drop_length]
    apply hreg.extend [_] h.released hfollows _ (Nat.le_refl _)
    . intro g hg
      rw [List.mem_singleton.mp hg]
      apply Grant.Drawn.ui call ⟨_, _, _⟩ hgeneric
      . simp only
        omega
      . simp [Listener.nextToken_subscribeAll]
    . intro g hg hgeneric' inner hfind
      rcases List.mem_append.mp hg with hold | hnew
      . apply hreg.routes g hold hgeneric' inner hfind
      . rw [List.mem_singleton.mp hnew] at hgeneric'
        simp [hgeneric] at hgeneric'
    . apply hreg.routes_le
    . simp only [State.InRange, Listener.nextToken_subscribeAll]
      exact hlt
  | view call handler hhandlers hgeneric =>
    have hlt := hbelow _ _ hhandlers
    simp only [drop_subscribeAll, List.drop_length]
    apply hreg.extend [_] h.released hfollows _ (Nat.le_refl _)
    . intro g hg
      rw [List.mem_singleton.mp hg]
      apply Grant.Drawn.view call ⟨_, _, _⟩ hgeneric
      . simp only
        omega
      . simp [Listener.nextToken_subscribeAll]
    . intro g hg hgeneric' inner hfind
      rcases List.mem_append.mp hg with hold | hnew
      . apply hreg.routes g hold hgeneric' inner hfind
      . rw [List.mem_singleton.mp hnew] at hgeneric'
        simp [hgeneric] at hgeneric'
    . apply hreg.routes_le
    . simp only [State.InRange, Listener.nextToken_subscribeAll]
      exact hlt
  | generic call callback hhandlers hgeneric =>
    have hlt := hbelow _ _ hhandlers
    simp only [State.onEvent, State.makeGenericToken, subscribed, drop_subscribeAll] at hfollows ⊢
    apply hreg.extend [_] h.released hfollows
    . simp only [State.InRange, Listener.nextToken_subscribeAll]
      exact hlt
    . simp
    . intro g hg
      rw [List.mem_singleton.mp hg]
      apply Grant.Drawn.generic call _ _ _ hgeneric
      . omega
      . apply Nat.le_refl
      . intro sub hsub
        simp only [Listener.nextToken_subscribeAll]
        apply (Listener.token_of_mem_entries hsub).right
      . intro sub hsub
        simp only [Listener.nextToken_subscribeAll]
        apply (Listener.token_of_mem_entries hsub).right
    . intro g hg hgeneric' inner hfind
      simp only [hreg.find?_emplace_next] at hfind
      rcases List.mem_append.mp hg with hold | hnew
      . split at hfind
        . next heq =>
          cases hreg.drawn g hold with
          | ui call sub hfalse => simp [hfalse] at hgeneric'
          | view call sub hfalse => simp [hfalse] at hgeneric'
          | generic call n us vs hgeneric' hpos hle =>
            simp only at heq
            omega
        . apply hreg.routes g hold hgeneric' inner hfind
      . rw [List.mem_singleton.mp hnew] at hfind ⊢
        simp only [if_true, Option.some.injEq] at hfind
        rw [← hfind, Listener.subscribeAll_eq, Listener.subscribeAll_eq]
        simp [Grant.inner]
    . intro t inner hfind
      simp only [hreg.find?_emplace_next] at hfind
      simp only
      split at hfind
      . omega
      . have := hreg.routes_le t inner hfind
        omega
  | unsubscribe token =>
    have hafter := hreg.afterUnsubscribe token
    simp only [unsubscribed]
    cases (h.state.unsubscribe token).1 with
    | error e => apply hafter
    | ok _ => apply hafter

theorem Registered.gone_unsubscribe {h : History κ φ} (hreg : h.Registered) {g : Grant κ φ}
    (hg : g ∈ h.grants) (hok : (h.state.unsubscribe g.token).1 = ok)
    : (∀ sub ∈ g.ui, (h.state.unsubscribe g.token).2.ui.Gone sub.token)
      ∧ ∀ sub ∈ g.view, (h.state.unsubscribe g.token).2.view.Gone sub.token := by
  have hrange := hreg.inRange
  have huile := (hreg.drawn g hg).ui_le
  have hviewle := (hreg.drawn g hg).view_le
  have hroutes := hreg.routes g hg
  simp only [State.InRange] at hrange
  cases hreg.drawn g hg with
  | ui call sub hgeneric hpos hle =>
    rw [State.unsubscribe_ui hpos (by omega)]
    simp only [List.mem_singleton, forall_eq, List.not_mem_nil, false_imp_iff, implies_true,
      and_true]
    apply Listener.gone_unsubscribeAll hreg.ui_valid (List.mem_singleton_self _) hle
  | view call sub hgeneric hpos hle =>
    rw [State.unsubscribe_view (by omega)]
    simp only [List.mem_singleton, forall_eq, List.not_mem_nil, false_imp_iff, implies_true,
      true_and]
    apply Listener.gone_unsubscribeAll hreg.view_valid (List.mem_singleton_self _) hle
  | generic call n us vs hgeneric hpos hle hus hvs =>
    rw [State.unsubscribe_generic (Nat.le_add_right _ _)] at hok ⊢
    cases hfind : h.state.genericRoutes.find? (genericTokenBase + n) with
    | none => simp [hfind, ok] at hok
    | some inner =>
      have hinner := hroutes hgeneric inner hfind
      have husLt : ∀ sub ∈ us, sub.token < viewTokenBase := by
        intro sub hsub
        have := hus sub hsub
        omega
      have hvsLt : ∀ sub ∈ vs, sub.token < viewTokenBase := by
        intro sub hsub
        have := hvs sub hsub
        omega
      simp only [hinner, State.foldl_inner husLt hvsLt]
      constructor
      . intro sub hsub
        apply Listener.gone_unsubscribeAll hreg.ui_valid _ (hus sub hsub)
        apply List.mem_map_of_mem hsub
      . intro sub hsub
        apply Listener.gone_unsubscribeAll hreg.view_valid _ (hvs sub hsub)
        apply List.mem_map_of_mem hsub

theorem state_step (h : History κ φ) (call : Call κ φ)
    : (h.step call).state = (call.perform h.state).2 := by
  unfold History.step
  generalize call.perform h.state = r
  split
  split <;> rfl

theorem registered_initial : (({} : History κ φ)).Registered where
  ui_valid := Listener.valid_initial
  view_valid := Listener.valid_initial
  inRange := by
    have hpos : 0 < viewTokenBase := by decide
    unfold State.InRange
    exact ⟨hpos, hpos⟩
  drawn := by simp
  routes := by simp
  routes_le := by
    intro t inner hfind
    simp at hfind

end History

theorem dispatcher_laws
    : Snapshot.Laws (dispatcher κ φ) History.Registered History.BelowBase History.Gone := by
  constructor
  case valid_perform => exact fun call h hreg hbelow => hreg.step hbelow
  case gone_perform =>
    intro call h hreg _ key hgone
    apply hgone.follows
    simp only [dispatcher, History.state_step]
    apply State.follows_perform hreg.ui_valid hreg.view_valid
  case gone_removed =>
    intro call h hreg _ key hkey
    simp only [dispatcher, Call.released] at hkey
    split at hkey
    . next token =>
      split at hkey
      . next hok =>
        simp only [List.mem_flatMap, List.mem_filter, decide_eq_true_eq] at hkey
        rcases hkey with ⟨g, ⟨hg, rfl⟩, hmem⟩
        have hgone := hreg.gone_unsubscribe hg hok
        have hstate : ((dispatcher κ φ).perform (.unsubscribe g.token) h).state
            = (h.state.unsubscribe g.token).2 := by
          simp only [dispatcher, History.state_step, Call.perform, unsubscribed]
        simp only [Grant.keys, List.mem_append, List.mem_map] at hmem
        rcases hmem with ⟨sub, hsub, rfl⟩ | ⟨sub, hsub, rfl⟩
        . simp only [History.Gone, hstate]
          apply hgone.left sub hsub
        . simp only [History.Gone, hstate]
          apply hgone.right sub hsub
      . cases hkey
    . cases hkey
  case matched =>
    intro n h hreg sub hsub hgone
    cases n with
    | ui code =>
      simp only [dispatcher, State.matched, List.mem_map, List.mem_filter] at hsub
      rcases hsub with ⟨sub, ⟨hmem, _⟩, rfl⟩
      apply hgone.right sub hmem rfl
    | view code =>
      simp only [dispatcher, State.matched, List.mem_map, List.mem_filter] at hsub
      rcases hsub with ⟨sub, ⟨hmem, _⟩, rfl⟩
      apply hgone.right sub hmem rfl

end Registered

end Ui
end Idax
