import Idax.Error
import Idax.Library.VaList

/-!
The listener that `DbgListener` of `ida::debugger` and `EventListener` of `ida::ui` have in common:
a list of subscriptions to notification codes, hooked in the SDK while there are any. They differ in
what the matching handlers of a notification are given: the first hands all of them the `va_list` it
has got itself, the second hands each a copy.
-/

namespace Idax

structure Listener.Subscription (γ : Type u) (η : Type v) where
  token : Nat
  notificationCode : γ
  handler : η

/--
The tokens, which the source counts in 64 bits, do not run out.
-/
structure Listener (γ : Type u) (η : Type v) where
  subs : List (Listener.Subscription γ η) := []
  nextToken : Nat := 0
  hooked : Bool := false

namespace Listener

variable {γ : Type u} {η : Type v}

def ensureHooked (l : Listener γ η) : Listener γ η :=
  if !l.hooked then { l with hooked := true } else l

def ensureUnhooked (l : Listener γ η) : Listener γ η :=
  if l.hooked then { l with hooked := false } else l

def subscribe (code : γ) (handler : η) (l : Listener γ η) : Nat × Listener γ η :=
  let l := l.ensureHooked
  let token := l.nextToken + 1
  (token, { l with nextToken := token, subs := l.subs ++ [⟨token, code, handler⟩] })

def subscribeAll : List (γ × η) → Listener γ η → List Nat × Listener γ η
  | [], l => ([], l)
  | (code, handler) :: rest, l =>
    let (token, l) := l.subscribe code handler
    let (tokens, l) := subscribeAll rest l
    (token :: tokens, l)

def unsubscribe (token : Nat) (l : Listener γ η) : Bool × Listener γ η :=
  if l.subs.any (·.token = token) then
    let l := { l with subs := l.subs.eraseP (·.token = token) }
    (true, if l.subs.isEmpty then l.ensureUnhooked else l)
  else
    (false, l)

def matched [DecidableEq γ] (l : Listener γ η) (code : γ) : List η :=
  (l.subs.filter (·.notificationCode = code)).map Subscription.handler

theorem subs_subscribe (code : γ) (handler : η) (l : Listener γ η)
    : ∃ token, (l.subscribe code handler).2.subs = l.subs ++ [⟨token, code, handler⟩] := by
  unfold subscribe ensureHooked
  split <;> exact ⟨_, rfl⟩

theorem mem_of_mem_unsubscribe {token : Nat} {l : Listener γ η} {sub : Subscription γ η}
    (h : sub ∈ (l.unsubscribe token).2.subs) : sub ∈ l.subs := by
  have hsubs : (l.unsubscribe token).2.subs = l.subs.eraseP (·.token = token)
      ∨ (l.unsubscribe token).2.subs = l.subs := by
    unfold unsubscribe ensureUnhooked
    split
    . left
      simp only
      split
      . split <;> rfl
      . rfl
    . apply Or.inr rfl
  rcases hsubs with heq | heq
  . rw [heq] at h
    apply List.mem_of_mem_eraseP h
  . rw [heq] at h
    apply h

theorem mem_matched [DecidableEq γ] {l : Listener γ η} {code : γ} {h : η} (hmem : h ∈ l.matched code)
    : ∃ sub ∈ l.subs, sub.notificationCode = code ∧ sub.handler = h := by
  simp only [matched, List.mem_map, List.mem_filter, decide_eq_true_eq] at hmem
  rcases hmem with ⟨sub, ⟨hsub, hcode⟩, heq⟩
  exact ⟨sub, hsub, hcode, heq⟩

section OnEvent

variable {α β : Type u} {σ : Type w} [DecidableEq γ]

def keepResult (call : η → β → σ → Int × σ) (h : η) (b : β) (acc : Int × σ) : Int × σ :=
  let (r, s) := call h b acc.2
  (if r ≠ 0 then r else acc.1, s)

/--
`DbgListener::on_event`, with the last result of a handler that is not zero. `read` says what a
handler takes from the arguments and `call` what it then does.
-/
def dbgOnEvent (read : η → VaList.Reader α β) (call : η → β → σ → Int × σ) (l : Listener γ η)
    (code : γ) (va : List α) (s : σ) : Option (Int × σ) :=
  VaList.passShared read (keepResult call) (l.matched code) va (0, s)

end OnEvent

end Listener
end Idax
