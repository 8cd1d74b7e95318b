import Idax.Ui.Handles
import Idax.Ui.Routing

/-!
This module contains the question which handles to widgets share an id. An id is for one address, so
handles to different widgets differ in it, but a handle is given a new id wherever it is made without
an earlier one at hand.
-/

namespace Idax
namespace Ui

variable {κ φ : Type}

def WidgetAction.wrappings : WidgetAction κ φ → List Wrapping
  | .createWidget _ tw => tw.toList.map fun w => { widget := some w }
  | .createCustomViewer title lines tw =>
    if title.isEmpty ∨ lines.length > 2 ^ 31 - 1 then
      []
    else
      tw.toList.map fun w => { widget := some w }
  | .findWidget tw => tw.toList.map fun w => { widget := some w }
  | .ui _ handler widget previous => handler.wrappings widget previous
  | .view _ handler tw => handler.wrappings tw
  | _ => []

def Call.widget? : Call κ φ → Option Widget
  | .onWidgetVisibleOf widget _ => some widget
  | .onWidgetInvisibleOf widget _ => some widget
  | .onWidgetClosingOf widget _ => some widget
  | _ => none

theorem History.handlers_step {h : History κ φ} {call : Call κ φ} {g : Grant κ φ}
    (hg : g ∈ (h.step call).grants)
    : g ∈ h.grants
      ∨ call.handlers = some (
          g.ui.map fun sub => (sub.notificationCode, sub.handler),
          g.view.map fun sub => (sub.notificationCode, sub.handler)
        ) := by
  have hperformed := performed h.state call
  unfold step at hg
  generalize call.perform h.state = r at hperformed hg
  cases hperformed with
  | rejected call e => exact .inl hg
  | ui call handler hhandlers hgeneric =>
    simp only [drop_subscribeAll, List.drop_length] at hg
    rcases List.mem_append.mp hg with hold | hnew
    . exact .inl hold
    . rw [List.mem_singleton.mp hnew, hhandlers]
      simp [Listener.map_entries]
  | view call handler hhandlers hgeneric =>
    simp only [drop_subscribeAll, List.drop_length] at hg
    rcases List.mem_append.mp hg with hold | hnew
    . exact .inl hold
    . rw [List.mem_singleton.mp hnew, hhandlers]
      simp [Listener.map_entries]
  | generic call callback hhandlers hgeneric =>
    simp only [State.onEvent, State.makeGenericToken, subscribed, drop_subscribeAll] at hg
    rcases List.mem_append.mp hg with hold | hnew
    . exact .inl hold
    . rw [List.mem_singleton.mp hnew, hhandlers]
      simp only [Listener.map_entries, or_true]
  | unsubscribe token =>
    refine .inl ?_
    simp only [unsubscribed] at hg
    split at hg
    . next heq => cases hresult : (h.state.unsubscribe token).1 <;> simp [hresult, Except.map] at heq
    . exact hg
    . exact hg

theorem Call.widget?_of_handlers {call : Call κ φ} {us : List (UiNotification × UiHandler κ φ)}
    {vs : List (ViewNotification × ViewHandler κ φ)} (hhandlers : call.handlers = some (us, vs))
    {code : UiNotification} {target : TWidget} {wid : Nat} {callback : Option κ}
    (hmem : (code, .widget target wid callback) ∈ us)
    : ∃ h, call.widget? = some h ∧ h.impl = some target ∧ h.id = wid := by
  have hwidget : ∀ (h : Widget) (c : UiNotification) (cb : Option κ),
      (h.impl.map fun t => ([(c, UiHandler.widget (φ := φ) t h.id cb)],
        ([] : List (ViewNotification × ViewHandler κ φ)))) = some (us, vs)
      → h.impl = some target ∧ h.id = wid := by
    intro h c cb heq
    rw [Option.map_eq_some_iff] at heq
    rcases heq with ⟨t, himpl, heq⟩
    rw [Prod.mk.injEq] at heq
    rw [← heq.left, List.mem_singleton] at hmem
    injection hmem with _ hhandler
    injection hhandler with htarget hid _
    rw [himpl, htarget, hid]
    exact ⟨rfl, rfl⟩
  cases call with
  | onWidgetVisibleOf h cb => exact ⟨h, rfl, hwidget h _ cb hhandlers⟩
  | onWidgetInvisibleOf h cb => exact ⟨h, rfl, hwidget h _ cb hhandlers⟩
  | onWidgetClosingOf h cb => exact ⟨h, rfl, hwidget h _ cb hhandlers⟩
  | onPopupReady cb =>
    cases cb with
    | none => cases hhandlers
    | some cb =>
      cases hhandlers
      simp at hmem
  | onRenderingInfo cb =>
    cases cb with
    | none => cases hhandlers
    | some cb =>
      cases hhandlers
      simp at hmem
  | onEvent cb =>
    cases cb with
    | none => cases hhandlers
    | some cb =>
      cases hhandlers
      simp [State.eventUiHandlers] at hmem
  | onEventFiltered filter cb =>
    cases filter with
    | none => cases hhandlers
    | some filter =>
      cases cb with
      | none => cases hhandlers
      | some cb =>
        cases hhandlers
        simp [State.eventUiHandlers] at hmem
  | unsubscribe token => cases hhandlers
  | _ =>
    cases hhandlers
    simp at hmem

theorem UiHandler.wrappings_cases {handler : UiHandler κ φ} {widget previous : Option SdkWidget}
    {x : Wrapping} (hx : x ∈ handler.wrappings widget previous)
    : x.existingId = 0 ∧ (x.widget = widget ∨ x.widget = previous)
      ∨ ∃ target wid callback, handler = .widget target wid callback
          ∧ widget.map SdkWidget.address = some target ∧ x = { widget, existingId := wid } := by
  cases handler with
  | widget target wid callback =>
    simp only [wrappings] at hx
    split at hx
    . next haddress =>
      rw [List.mem_singleton] at hx
      exact .inr ⟨target, wid, callback, rfl, haddress, hx⟩
    . simp at hx
  | currentWidgetChanged callback =>
    simp only [wrappings, List.mem_cons, List.not_mem_nil, or_false] at hx
    rcases hx with rfl | rfl <;> simp
  | popupReady callback =>
    rw [List.mem_singleton.mp hx]
    simp
  | renderingInfo callback =>
    simp only [wrappings] at hx
    split at hx
    . rw [List.mem_singleton.mp hx]
      simp
    . simp at hx
  | event kind callback =>
    refine .inl ?_
    cases kind with
    | currentWidgetChanged =>
      simp only [wrappings, List.mem_cons, List.not_mem_nil, or_false] at hx
      rcases hx with rfl | rfl <;> simp
    | widgetVisible => simp [List.mem_singleton.mp hx]
    | widgetInvisible => simp [List.mem_singleton.mp hx]
    | widgetClosing => simp [List.mem_singleton.mp hx]
    | _ => simp [wrappings] at hx
  | _ => simp [wrappings] at hx

theorem ViewHandler.wrappings_cases {handler : ViewHandler κ φ} {view : Option SdkWidget}
    {x : Wrapping} (hx : x ∈ handler.wrappings view) : x = { widget := view } := by
  cases handler with
  | view callback => exact List.mem_singleton.mp hx
  | event kind callback =>
    cases kind with
    | viewActivated => exact List.mem_singleton.mp hx
    | viewDeactivated => exact List.mem_singleton.mp hx
    | viewCreated => exact List.mem_singleton.mp hx
    | viewClosed => exact List.mem_singleton.mp hx
    | _ => simp [wrappings] at hx
  | cursorChanged callback => simp [wrappings] at hx

namespace World

def Known (s : World κ φ) (tw : Option SdkWidget) : Prop :=
  ∀ w, tw = some w → w ∈ s.opened

def SubscribedUi (s : World κ φ) (code : UiNotification) (handler : UiHandler κ φ) : Prop :=
  ∃ g ∈ s.history.grants, ∃ sub ∈ g.ui, sub.notificationCode = code ∧ sub.handler = handler

def SubscribedView (s : World κ φ) (code : ViewNotification) (handler : ViewHandler κ φ) : Prop :=
  ∃ g ∈ s.history.grants, ∃ sub ∈ g.view, sub.notificationCode = code ∧ sub.handler = handler

/--
What the SDK and the callers can do: an address is not given to a second widget while the first one
is open, pointers are those of widgets, handles are those that were made before, or empty, and
notifications come to handlers that were subscribed.
-/
def Allowed (s : World κ φ) : WidgetAction κ φ → Prop
  | .opens address => ∀ w, s.Live w → w.address ≠ address
  | .closes _ => True
  | .createWidget _ tw => s.Known tw
  | .createCustomViewer _ _ tw => s.Known tw
  | .findWidget tw => s.Known tw
  | .call call => ∀ h, call.widget? = some h → h = {} ∨ ∃ w, (w, h) ∈ s.handles
  | .ui code handler widget previous =>
    s.SubscribedUi code handler ∧ s.Known widget ∧ s.Known previous
  | .view code handler view => s.SubscribedView code handler ∧ s.Known view

def SharesIds (s : World κ φ) : Prop :=
  ∀ w h h', s.Live w → (w, h) ∈ s.handles → (w, h') ∈ s.handles → h.id = h'.id

def DistinguishesWidgets (s : World κ φ) : Prop :=
  ∀ w w' h h', s.Live w → s.Live w' → w ≠ w' → (w, h) ∈ s.handles → (w', h') ∈ s.handles
    → h.id ≠ h'.id

/--
A handle to an open widget is the first one, or is given the id that the earlier ones have.
-/
def KeepsId (s : World κ φ) (x : Wrapping) : Prop :=
  ∀ w h, x.widget = some w → s.Live w → (w, h) ∈ s.handles → h.id = x.existingId

structure Inv (s : World κ φ) : Prop where
  serial : ∀ w ∈ s.opened, w.serial < s.opened.length
  apart : ∀ w w', s.Live w → s.Live w' → w.address = w'.address → w = w'
  pos : 0 < s.nextId
  opened : ∀ w h, (w, h) ∈ s.handles → w ∈ s.opened
  impl : ∀ w h, (w, h) ∈ s.handles → h.impl = some w.address
  ids : ∀ w h, (w, h) ∈ s.handles → 0 < h.id ∧ h.id < s.nextId
  address : ∀ w w' h h', (w, h) ∈ s.handles → (w', h') ∈ s.handles → h.id = h'.id
    → w.address = w'.address
  targets : ∀ code target wid callback, s.SubscribedUi code (.widget target wid callback)
    → ∃ w h, (w, h) ∈ s.handles ∧ w.address = target ∧ h.id = wid

def Sound (s : World κ φ) (x : Wrapping) : Prop :=
  ∀ w, x.widget = some w → w ∈ s.opened
    ∧ (x.existingId ≠ 0 → ∃ w' h, (w', h) ∈ s.handles ∧ w'.address = w.address
        ∧ h.id = x.existingId)

section Wrap

variable {s : World κ φ} {x : Wrapping}

def idOf (s : World κ φ) (x : Wrapping) : Nat :=
  if x.existingId ≠ 0 then x.existingId else s.nextId

theorem mem_handles_wrap {w : SdkWidget} {h : Widget}
    : (w, h) ∈ (s.wrap x).handles
        ↔ (w, h) ∈ s.handles
          ∨ x.widget = some w ∧ h = { impl := some w.address, id := s.idOf x } := by
  rcases x with ⟨tw, existingId⟩
  cases tw with
  | none => simp [wrap, record]
  | some w' =>
    simp only [wrap, record, WidgetAccess.wrap, Option.map_some, idOf, List.mem_append,
      List.mem_singleton, Prod.mk.injEq, Option.some.injEq]
    constructor
    . intro hmem
      rcases hmem with hold | ⟨rfl, rfl⟩
      . exact .inl hold
      . refine .inr ⟨rfl, ?_⟩
        split <;> rfl
    . intro hmem
      rcases hmem with hold | ⟨rfl, rfl⟩
      . exact .inl hold
      . refine .inr ⟨rfl, ?_⟩
        split <;> rfl

theorem opened_wrap : (s.wrap x).opened = s.opened := by
  unfold wrap record
  split <;> rfl

theorem closed_wrap : (s.wrap x).closed = s.closed := by
  unfold wrap record
  split <;> rfl

theorem history_wrap : (s.wrap x).history = s.history := by
  unfold wrap record
  split <;> rfl

theorem live_wrap {w : SdkWidget} : (s.wrap x).Live w ↔ s.Live w := by
  rw [Live, Live, opened_wrap, closed_wrap]

theorem nextId_le_wrap : s.nextId ≤ (s.wrap x).nextId := by
  rcases x with ⟨tw, existingId⟩
  cases tw with
  | none => apply Nat.le_refl
  | some w =>
    simp only [wrap, record, WidgetAccess.wrap, Option.map_some]
    split
    . apply Nat.le_refl
    . apply Nat.le_succ

theorem idOf_lt_wrap {w : SdkWidget} (hwidget : x.widget = some w) (hnew : x.existingId = 0)
    : s.idOf x < (s.wrap x).nextId := by
  rcases x with ⟨tw, existingId⟩
  simp only at hwidget hnew
  subst hwidget hnew
  apply Nat.lt_succ_self

theorem Sound.wrap {y : Wrapping} (h : s.Sound y) : (s.wrap x).Sound y := by
  intro w hw
  rcases h w hw with ⟨hopened, hexisting⟩
  constructor
  . rw [opened_wrap]
    apply hopened
  . intro hid
    rcases hexisting hid with ⟨w', h, hmem, haddress, heq⟩
    exact ⟨w', h, mem_handles_wrap.mpr (.inl hmem), haddress, heq⟩

theorem Sound.idOf_cases (hsound : s.Sound x) {w : SdkWidget} (hwidget : x.widget = some w)
    : (∃ w' h, (w', h) ∈ s.handles ∧ w'.address = w.address ∧ h.id = s.idOf x)
      ∨ x.existingId = 0 ∧ s.idOf x = s.nextId := by
  by_cases hid : x.existingId = 0
  . refine .inr ⟨hid, ?_⟩
    simp only [idOf, hid, ne_eq, not_true_eq_false, ↓reduceIte]
  . rcases (hsound w hwidget).right hid with ⟨w', h, hmem, haddress, heq⟩
    refine .inl ⟨w', h, hmem, haddress, ?_⟩
    rw [idOf, if_pos hid, heq]

theorem Inv.wrap (hinv : s.Inv) (hsound : s.Sound x) : (s.wrap x).Inv where
  serial := by
    rw [opened_wrap]
    apply hinv.serial
  apart := by
    simp only [live_wrap]
    apply hinv.apart
  pos := Nat.lt_of_lt_of_le hinv.pos nextId_le_wrap
  opened := by
    intro w h hmem
    rw [opened_wrap]
    rcases mem_handles_wrap.mp hmem with hold | ⟨hwidget, _⟩
    . apply hinv.opened w h hold
    . apply (hsound w hwidget).left
  impl := by
    intro w h hmem
    rcases mem_handles_wrap.mp hmem with hold | ⟨_, rfl⟩
    . apply hinv.impl w h hold
    . rfl
  ids := by
    intro w h hmem
    have hle := nextId_le_wrap (s := s) (x := x)
    rcases mem_handles_wrap.mp hmem with hold | ⟨hwidget, rfl⟩
    . have := hinv.ids w h hold
      omega
    . rcases hsound.idOf_cases hwidget with ⟨w', h', hmem', _, heq⟩ | ⟨hnew, heq⟩
      . have := hinv.ids w' h' hmem'
        simp only
        omega
      . have hlt := idOf_lt_wrap hwidget hnew (s := s)
        have := hinv.pos
        simp only
        omega
  address := by
    have hnew : ∀ w w' h, (w, h) ∈ s.handles → x.widget = some w' → h.id = s.idOf x
        → w.address = w'.address := by
      intro w w' h hmem hwidget heq
      rcases hsound.idOf_cases hwidget with ⟨w'', h'', hmem', haddress, heq'⟩ | ⟨_, hfresh⟩
      . rw [← haddress]
        apply hinv.address w w'' h h'' hmem hmem'
        rw [heq, heq']
      . have := hinv.ids w h hmem
        omega
    intro w w' h h' hmem hmem' heq
    rcases mem_handles_wrap.mp hmem with hold | ⟨hwidget, rfl⟩
    . rcases mem_handles_wrap.mp hmem' with hold' | ⟨hwidget', rfl⟩
      . apply hinv.address w w' h h' hold hold' heq
      . apply hnew w w' h hold hwidget' heq
    . rcases mem_handles_wrap.mp hmem' with hold' | ⟨hwidget', rfl⟩
      . apply (hnew w' w h' hold' hwidget heq.symm).symm
      . rw [hwidget, Option.some.injEq] at hwidget'
        rw [hwidget']
  targets := by
    intro code target wid callback hsub
    unfold SubscribedUi at hsub
    rw [history_wrap] at hsub
    rcases hinv.targets code target wid callback hsub with ⟨w, h, hmem, htarget, hid⟩
    exact ⟨w, h, mem_handles_wrap.mpr (.inl hmem), htarget, hid⟩

theorem sharesIds_wrap_iff (hinv : s.Inv)
    : (s.wrap x).SharesIds ↔ s.SharesIds ∧ s.KeepsId x := by
  unfold SharesIds
  simp only [live_wrap, mem_handles_wrap]
  constructor
  . intro hshares
    constructor
    . intro w h h' hlive hmem hmem'
      apply hshares w h h' hlive (.inl hmem) (.inl hmem')
    . intro w h hwidget hlive hmem
      have heq := hshares w h _ hlive (.inl hmem) (.inr ⟨hwidget, rfl⟩)
      have hlt := hinv.ids w h hmem
      simp only [idOf] at heq
      split at heq
      . apply heq
      . omega
  . intro ⟨hshares, hkeeps⟩ w h h' hlive hmem hmem'
    have hnew : ∀ h, (w, h) ∈ s.handles → x.widget = some w → h.id = s.idOf x := by
      intro h hmem hwidget
      have heq := hkeeps w h hwidget hlive hmem
      have hpos := hinv.ids w h hmem
      rw [idOf, if_pos (by omega), heq]
    rcases hmem with hold | ⟨hwidget, rfl⟩
    . rcases hmem' with hold' | ⟨hwidget', rfl⟩
      . apply hshares w h h' hlive hold hold'
      . apply hnew h hold hwidget'
    . rcases hmem' with hold' | ⟨_, rfl⟩
      . apply (hnew h' hold' hwidget).symm
      . rfl

theorem wraps {xs : List Wrapping} (hinv : s.Inv) (hsound : ∀ x ∈ xs, s.Sound x)
    : (Machine.run wrap s xs).Inv
      ∧ ((Machine.run wrap s xs).SharesIds
        ↔ s.SharesIds ∧ Machine.Guarded wrap KeepsId s xs) := by
  induction xs generalizing s with
  | nil => exact ⟨hinv, by simp [Machine.run, Machine.Guarded]⟩
  | cons x xs ih =>
    have hx := hsound x List.mem_cons_self
    have hrest := ih (hinv.wrap hx) fun y hy => (hsound y (List.mem_cons_of_mem x hy)).wrap
    refine ⟨hrest.left, ?_⟩
    rw [Machine.run, hrest.right, sharesIds_wrap_iff hinv, Machine.Guarded, and_assoc]

end Wrap

section Step

variable {s : World κ φ}

theorem step_createCustomViewer (title : String) (lines : List String) (tw : Option SdkWidget)
    : s.step (.createCustomViewer title lines tw)
        = Machine.run wrap s (.createCustomViewer title lines tw : WidgetAction κ φ).wrappings := by
  simp only [step, createCustomViewer, makeCustomViewerState, WidgetAction.wrappings]
  by_cases htitle : title.isEmpty
  . simp only [htitle, ↓reduceIte, true_or]
    rfl
  . by_cases hlines : lines.length > 2 ^ 31 - 1
    . simp only [htitle, hlines, Bool.false_eq_true, ↓reduceIte, or_true]
      rfl
    . simp only [htitle, hlines, Bool.false_eq_true, ↓reduceIte, or_self]
      cases tw <;> rfl

theorem sound_fresh {tw : Option SdkWidget} (hknown : s.Known tw) : s.Sound { widget := tw } := by
  intro w hw
  exact ⟨hknown w hw, fun hne => absurd rfl hne⟩

theorem sound_toList {tw : Option SdkWidget} (hknown : s.Known tw) {x : Wrapping}
    (hx : x ∈ tw.toList.map fun w => { widget := some w }) : s.Sound x := by
  rcases List.mem_map.mp hx with ⟨w, hw, rfl⟩
  rw [Option.mem_toList] at hw
  rw [← show tw = some w from hw]
  apply sound_fresh hknown

theorem Inv.sound (hinv : s.Inv) {a : WidgetAction κ φ} (hallowed : s.Allowed a)
    : ∀ x ∈ a.wrappings, s.Sound x := by
  intro x hx
  cases a with
  | opens address => simp [WidgetAction.wrappings] at hx
  | closes w => simp [WidgetAction.wrappings] at hx
  | call call => simp [WidgetAction.wrappings] at hx
  | createWidget title tw => apply sound_toList hallowed hx
  | findWidget tw => apply sound_toList hallowed hx
  | createCustomViewer title lines tw =>
    rw [WidgetAction.wrappings] at hx
    split at hx
    . simp at hx
    . apply sound_toList hallowed hx
  | view code handler tw =>
    rw [ViewHandler.wrappings_cases hx]
    apply sound_fresh hallowed.right
  | ui code handler widget previous =>
    rcases hallowed with ⟨hsub, hwidget, hprevious⟩
    rcases UiHandler.wrappings_cases hx with ⟨hid, heq⟩ | ⟨target, wid, callback, rfl, haddress, rfl⟩
    . intro w hw
      refine ⟨?_, fun hne => absurd hid hne⟩
      rcases heq with heq | heq
      . apply hwidget w
        rw [← heq, hw]
      . apply hprevious w
        rw [← heq, hw]
    . intro w hw
      simp only at hw
      subst hw
      refine ⟨hwidget w rfl, ?_⟩
      intro _
      rcases hinv.targets code target wid callback hsub with ⟨w', h, hmem, htarget, hid⟩
      rw [Option.map_some, Option.some.injEq] at haddress
      exact ⟨w', h, hmem, by rw [htarget, haddress], hid⟩

theorem Inv.opens (hinv : s.Inv) {address : TWidget}
    (hapart : ∀ w, s.Live w → w.address ≠ address) : (s.step (.opens address)).Inv where
  serial := by
    intro w hw
    simp only [step, List.mem_append, List.mem_singleton, List.length_append,
      List.length_singleton] at hw ⊢
    rcases hw with hold | rfl
    . have := hinv.serial w hold
      omega
    . apply Nat.lt_succ_self
  apart := by
    intro w w' hlive hlive' heq
    simp only [step, Live, List.mem_append, List.mem_singleton] at hlive hlive'
    rcases hlive with ⟨hold | rfl, hclosed⟩
    . rcases hlive' with ⟨hold' | rfl, hclosed'⟩
      . apply hinv.apart w w' ⟨hold, hclosed⟩ ⟨hold', hclosed'⟩ heq
      . exact absurd heq (hapart w ⟨hold, hclosed⟩)
    . rcases hlive' with ⟨hold' | rfl, hclosed'⟩
      . exact absurd heq.symm (hapart w' ⟨hold', hclosed'⟩)
      . rfl
  pos := hinv.pos
  opened := by
    intro w h hmem
    apply List.mem_append_left _ (hinv.opened w h hmem)
  impl := hinv.impl
  ids := hinv.ids
  address := hinv.address
  targets := hinv.targets

theorem Inv.closes (hinv : s.Inv) (w : SdkWidget) : (s.step (.closes w)).Inv where
  serial := hinv.serial
  apart := by
    intro w' w'' hlive hlive'
    simp only [step, Live, List.mem_cons, not_or] at hlive hlive'
    apply hinv.apart w' w'' ⟨hlive.left, hlive.right.right⟩ ⟨hlive'.left, hlive'.right.right⟩
  pos := hinv.pos
  opened := hinv.opened
  impl := hinv.impl
  ids := hinv.ids
  address := hinv.address
  targets := hinv.targets

theorem Inv.call (hinv : s.Inv) {call : Call κ φ} (hallowed : s.Allowed (.call call))
    : (s.step (.call call)).Inv where
  serial := hinv.serial
  apart := hinv.apart
  pos := hinv.pos
  opened := hinv.opened
  impl := hinv.impl
  ids := hinv.ids
  address := hinv.address
  targets := by
    intro code target wid callback ⟨g, hg, sub, hsub, hcode, hhandler⟩
    rcases History.handlers_step hg with hold | hhandlers
    . apply hinv.targets code target wid callback ⟨g, hold, sub, hsub, hcode, hhandler⟩
    . have hmem : (code, .widget target wid callback)
          ∈ g.ui.map fun sub => (sub.notificationCode, sub.handler) := by
        rw [List.mem_map]
        exact ⟨sub, hsub, by rw [hcode, hhandler]⟩
      rcases Call.widget?_of_handlers hhandlers hmem with ⟨h, hcall, himpl, hid⟩
      rcases hallowed h hcall with rfl | ⟨w, hknown⟩
      . cases himpl
      . rw [hinv.impl w h hknown, Option.some.injEq] at himpl
        exact ⟨w, h, hknown, himpl, hid⟩

def KeepsIds (s : World κ φ) (a : WidgetAction κ φ) : Prop :=
  Machine.Guarded wrap KeepsId s a.wrappings

def Identity (s : World κ φ) : Prop :=
  s.SharesIds ∧ s.DistinguishesWidgets

theorem Inv.distinguishesWidgets (hinv : s.Inv) : s.DistinguishesWidgets := by
  intro w w' h h' hlive hlive' hne hmem hmem' heq
  apply hne
  apply hinv.apart w w' hlive hlive'
  apply hinv.address w w' h h' hmem hmem' heq

theorem SharesIds.of_live {s' : World κ φ} (hshares : s.SharesIds) (hhandles : s'.handles = s.handles)
    (hlive : ∀ w h, (w, h) ∈ s.handles → s'.Live w → s.Live w) : s'.SharesIds := by
  intro w h h' hw hmem hmem'
  rw [hhandles] at hmem hmem'
  apply hshares w h h' (hlive w h hmem hw) hmem hmem'

theorem step_spec (hinv : s.Inv) {a : WidgetAction κ φ} (hallowed : s.Allowed a)
    : (s.step a).Inv ∧ (s.SharesIds → ((s.step a).SharesIds ↔ s.KeepsIds a)) := by
  have hwraps : (Machine.run wrap s a.wrappings).Inv ∧ (s.SharesIds →
      ((Machine.run wrap s a.wrappings).SharesIds ↔ s.KeepsIds a)) := by
    rcases wraps hinv (hinv.sound hallowed) with ⟨hafter, hiff⟩
    refine ⟨hafter, fun hshares => ?_⟩
    rw [hiff, KeepsIds, and_iff_right hshares]
  cases a with
  | opens address =>
    have hhandles : (s.step (.opens address)).handles = s.handles := rfl
    refine ⟨hinv.opens hallowed, fun hshares => ⟨fun _ => trivial, fun _ => ?_⟩⟩
    apply hshares.of_live hhandles
    intro w h hmem hlive
    exact ⟨hinv.opened w h hmem, hlive.right⟩
  | closes w =>
    have hhandles : (s.step (.closes w)).handles = s.handles := rfl
    refine ⟨hinv.closes w, fun hshares => ⟨fun _ => trivial, fun _ => ?_⟩⟩
    apply hshares.of_live hhandles
    intro w' h hmem hlive
    exact ⟨hlive.left, fun hclosed => hlive.right (List.mem_cons_of_mem w hclosed)⟩
  | call call =>
    exact ⟨hinv.call hallowed, fun hshares => ⟨fun _ => trivial, fun _ => hshares⟩⟩
  | createWidget title tw =>
    cases tw with
    | none => apply hwraps
    | some w => apply hwraps
  | createCustomViewer title lines tw =>
    rw [step_createCustomViewer]
    apply hwraps
  | findWidget tw =>
    cases tw with
    | none => apply hwraps
    | some w => apply hwraps
  | ui code handler widget previous => apply hwraps
  | view code handler tw => apply hwraps

theorem inv_initial : ({} : World κ φ).Inv where
  serial := by simp
  apart := by
    intro w w' hlive
    cases hlive.left
  pos := Nat.one_pos
  opened := by simp
  impl := by simp
  ids := by simp
  address := by simp
  targets := by
    intro code target wid callback ⟨g, hg, _⟩
    cases hg

end Step

/--
Handles to one open widget always share an id exactly when every handle keeps the id of its widget;
handles to different open widgets always differ in it.
-/
theorem always_identity_iff (actions : List (WidgetAction κ φ))
    (hallowed : Machine.Guarded step Allowed {} actions)
    : (Machine.Always step Identity {} actions ↔ Machine.Guarded step KeepsIds {} actions)
        ∧ Machine.Always step DistinguishesWidgets {} actions := by
  have hinitial : ({} : World κ φ).SharesIds := by
    intro w h h' hlive
    cases hlive.left
  constructor
  . apply Machine.always_iff_guarded_of_allowed (J := Inv) (A := Allowed)
    . exact fun s a hinv hallowed => (step_spec hinv hallowed).left
    . intro s a hinv hallowed hidentity
      rw [Identity, (step_spec hinv hallowed).right hidentity.left]
      have hdistinguishes := (step_spec hinv hallowed).left.distinguishesWidgets
      simp only [hdistinguishes, and_true]
    . apply inv_initial
    . exact ⟨hinitial, inv_initial.distinguishesWidgets⟩
    . apply hallowed
  . have halways : Machine.Always step DistinguishesWidgets {} actions
        ↔ Machine.Guarded step (fun _ _ => True) {} actions := by
      apply Machine.always_iff_guarded_of_allowed (J := Inv) (A := Allowed)
      . exact fun s a hinv hallowed => (step_spec hinv hallowed).left
      . intro s a hinv hallowed _
        simp only [(step_spec hinv hallowed).left.distinguishesWidgets]
      . apply inv_initial
      . apply inv_initial.distinguishesWidgets
      . apply hallowed
    rw [halways]
    apply Machine.guarded_of_forall
    intro s a
    trivial

def followedWidget : List (WidgetAction Unit Unit) :=
  [
    .opens 5,
    .createWidget "A" (some ⟨5, 0⟩),
    .call (.onWidgetVisibleOf { impl := some 5, id := 1 } (some ())),
    .ui .widgetVisible (.widget 5 1 (some ())) (some ⟨5, 0⟩) none
  ]

theorem identity_followedWidget : Machine.Always step Identity {} followedWidget := by
  apply (always_identity_iff followedWidget ?_).left.mpr
  . refine ⟨trivial, ⟨?_, trivial⟩, trivial, ⟨?_, trivial⟩, trivial⟩
    . intro w h _ _ hmem
      cases hmem
    . intro w h _ _ hmem
      rcases List.mem_singleton.mp hmem with ⟨rfl, rfl⟩
      rfl
  . refine ⟨?_, ?_, ?_, ⟨?_, ?_, ?_⟩, trivial⟩
    . intro w hlive
      cases hlive.left
    . rintro w ⟨⟩
      apply List.mem_singleton_self
    . rintro h ⟨⟩
      exact .inr ⟨⟨5, 0⟩, List.mem_singleton_self _⟩
    . exact ⟨_, List.mem_singleton_self _, _, List.mem_singleton_self _, rfl, rfl⟩
    . rintro w ⟨⟩
      apply List.mem_singleton_self
    . rintro w ⟨⟩

def foundWidget : List (WidgetAction Unit Unit) :=
  [.opens 5, .createWidget "A" (some ⟨5, 0⟩), .findWidget (some ⟨5, 0⟩)]

theorem not_identity_foundWidget
    : Machine.Guarded step Allowed {} foundWidget
        ∧ (Machine.run step {} foundWidget).handles
          = [(⟨5, 0⟩, { impl := some 5, id := 1 }), (⟨5, 0⟩, { impl := some 5, id := 2 })]
        ∧ ¬(Machine.run step {} foundWidget).Identity := by
  refine ⟨⟨?_, ?_, ?_, trivial⟩, by decide, ?_⟩
  . intro w hlive
    cases hlive.left
  . rintro w ⟨⟩
    apply List.mem_singleton_self
  . rintro w ⟨⟩
    apply List.mem_singleton_self
  . intro hidentity
    have heq := hidentity.left ⟨5, 0⟩ { impl := some 5, id := 1 } { impl := some 5, id := 2 }
      ⟨by decide, by decide⟩ (by decide) (by decide)
    cases heq

end World

end Ui
end Idax
