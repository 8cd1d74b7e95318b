import Idax.Listeners.Listener
import Mathlib.Data.List.Find

/-!
What `subscribe` and `unsubscribe` of a listener do to its subscriptions, and the invariant that
they keep: the tokens ascend and are bounded by the counter, and the listener is hooked in the SDK
while it holds a subscription.
-/

namespace Idax
namespace Listener

variable {γ : Type u} {η : Type v}

structure Valid (l : Listener γ η) : Prop where
  ascending : l.subs.Pairwise fun sub sub' => sub.token < sub'.token
  issued : ∀ sub ∈ l.subs, 0 < sub.token ∧ sub.token ≤ l.nextToken
  hooked_iff : l.hooked = true ↔ l.subs ≠ []

theorem valid_initial : (Listener.mk [] 0 false : Listener γ η).Valid where
  ascending := List.Pairwise.nil
  issued := by simp
  hooked_iff := by simp

section Subscribe

theorem subscribe_eq (code : γ) (handler : η) (l : Listener γ η)
    : l.subscribe code handler
      = (l.nextToken + 1, {
          subs := l.subs ++ [⟨l.nextToken + 1, code, handler⟩]
          nextToken := l.nextToken + 1
          hooked := true
        }) := by
  unfold subscribe ensureHooked
  cases h : l.hooked <;> simp [h]

theorem valid_subscribe {l : Listener γ η} (hvalid : l.Valid) (code : γ) (handler : η)
    : (l.subscribe code handler).2.Valid := by
  rw [subscribe_eq]
  refine ⟨?_, ?_, by simp⟩
  . apply List.pairwise_append.mpr
    refine ⟨hvalid.ascending, List.pairwise_singleton _ _, ?_⟩
    intro sub hsub sub' hsub'
    have hle := (hvalid.issued sub hsub).right
    simp only [List.mem_singleton] at hsub'
    rw [hsub']
    simp only
    omega
  . intro sub hsub
    simp only [List.mem_append, List.mem_singleton] at hsub
    rcases hsub with hold | rfl
    . have hissued := hvalid.issued sub hold
      simp only
      omega
    . simp

def entries (n : Nat) : List (γ × η) → List (Subscription γ η)
  | [] => []
  | (code, handler) :: rest => ⟨n + 1, code, handler⟩ :: entries (n + 1) rest

theorem length_entries (n : Nat) (hs : List (γ × η)) : (entries n hs).length = hs.length := by
  induction hs generalizing n with
  | nil => rfl
  | cons h hs ih => simp only [entries, List.length_cons, ih]

theorem map_entries (n : Nat) (hs : List (γ × η))
    : (entries n hs).map (fun sub => (sub.notificationCode, sub.handler)) = hs := by
  induction hs generalizing n with
  | nil => rfl
  | cons h hs ih => simp only [entries, List.map_cons, ih]

theorem token_of_mem_entries {n : Nat} {hs : List (γ × η)} {sub : Subscription γ η}
    (hmem : sub ∈ entries n hs) : n < sub.token ∧ sub.token ≤ n + hs.length := by
  induction hs generalizing n with
  | nil => simp [entries] at hmem
  | cons h hs ih =>
    simp only [entries, List.mem_cons] at hmem
    simp only [List.length_cons]
    rcases hmem with rfl | hmem
    . simp only
      omega
    . have := ih hmem
      omega

theorem subscribeAll_eq (hs : List (γ × η)) (l : Listener γ η)
    : l.subscribeAll hs = ((entries l.nextToken hs).map Subscription.token, {
        subs := l.subs ++ entries l.nextToken hs
        nextToken := l.nextToken + hs.length
        hooked := l.hooked || !hs.isEmpty
      }) := by
  induction hs generalizing l with
  | nil => simp [subscribeAll, entries]
  | cons h hs ih =>
    rw [subscribeAll, subscribe_eq]
    simp only [ih, entries, List.map_cons, List.append_assoc, List.singleton_append,
      List.length_cons, List.isEmpty_cons, Bool.true_or, Bool.not_false, Bool.or_true]
    rw [Nat.add_assoc, Nat.add_comm 1]

theorem nextToken_subscribeAll (hs : List (γ × η)) (l : Listener γ η)
    : (l.subscribeAll hs).2.nextToken = l.nextToken + hs.length := by
  rw [subscribeAll_eq]

theorem valid_subscribeAll {l : Listener γ η} (hvalid : l.Valid) (hs : List (γ × η))
    : (l.subscribeAll hs).2.Valid := by
  induction hs generalizing l with
  | nil => apply hvalid
  | cons h hs ih =>
    simp only [subscribeAll]
    apply ih
    apply valid_subscribe hvalid

end Subscribe

section Unsubscribe

theorem eraseP_eq_filter {subs : List (Subscription γ η)}
    (hasc : subs.Pairwise fun sub sub' => sub.token < sub'.token) (token : Nat)
    : subs.eraseP (·.token = token) = subs.filter (·.token ≠ token) := by
  induction subs with
  | nil => rfl
  | cons sub subs ih =>
    rw [List.pairwise_cons] at hasc
    by_cases h : sub.token = token
    . have hrest : subs.filter (·.token ≠ token) = subs := by
        apply List.filter_eq_self.mpr
        intro sub' hsub'
        have hlt := hasc.left sub' hsub'
        simp only [ne_eq, decide_eq_true_eq]
        omega
      rw [List.eraseP_cons_of_pos (by simp [h]), List.filter_cons_of_neg (by simp [h]), hrest]
    . rw [List.eraseP_cons_of_neg (by simp [h]), List.filter_cons_of_pos (by simp [h]),
        ih hasc.right]

theorem unsubscribe_of_not_mem {l : Listener γ η} {token : Nat}
    (h : ∀ sub ∈ l.subs, sub.token ≠ token) : l.unsubscribe token = (false, l) := by
  have hany : ¬ l.subs.any (·.token = token) := by
    simp only [List.any_eq_true, decide_eq_true_eq, not_exists, not_and]
    apply h
  rw [unsubscribe, if_neg hany]

theorem unsubscribe_of_not_removed {l : Listener γ η} {token : Nat}
    (h : (l.unsubscribe token).1 = false) : (l.unsubscribe token).2 = l := by
  unfold unsubscribe at h ⊢
  split
  . next hany =>
    rw [if_pos hany] at h
    cases h
  . rfl

theorem unsubscribe_of_mem {l : Listener γ η} (hvalid : l.Valid) {sub : Subscription γ η}
    (h : sub ∈ l.subs)
    : l.unsubscribe sub.token = (true, {
        subs := l.subs.filter (·.token ≠ sub.token)
        nextToken := l.nextToken
        hooked := !(l.subs.filter (·.token ≠ sub.token)).isEmpty
      }) := by
  have hany : l.subs.any (·.token = sub.token) := by
    simp only [List.any_eq_true, decide_eq_true_eq]
    exact ⟨sub, h, rfl⟩
  have hhooked : l.hooked = true := hvalid.hooked_iff.mpr (List.ne_nil_of_mem h)
  rw [unsubscribe, if_pos hany, eraseP_eq_filter hvalid.ascending]
  simp only [ensureUnhooked, hhooked]
  cases hempty : (l.subs.filter (·.token ≠ sub.token)).isEmpty <;> simp

theorem unsubscribe_eq {l : Listener γ η} (hvalid : l.Valid) (token : Nat)
    : l.unsubscribe token = (l.subs.any (·.token = token), {
        subs := l.subs.filter (·.token ≠ token)
        nextToken := l.nextToken
        hooked := !(l.subs.filter (·.token ≠ token)).isEmpty
      }) := by
  by_cases h : ∃ sub ∈ l.subs, sub.token = token
  . rcases h with ⟨sub, hsub, rfl⟩
    rw [unsubscribe_of_mem hvalid hsub]
    have hany : l.subs.any (·.token = sub.token) = true := by
      simp only [List.any_eq_true, decide_eq_true_eq]
      exact ⟨sub, hsub, rfl⟩
    rw [hany]
  . simp only [not_exists, not_and] at h
    have hfilter : l.subs.filter (·.token ≠ token) = l.subs := by
      apply List.filter_eq_self.mpr
      intro sub hsub
      simp [h sub hsub]
    have hany : l.subs.any (·.token = token) = false := by
      simp only [List.any_eq_false, decide_eq_true_eq]
      apply h
    have hhooked : l.hooked = !l.subs.isEmpty := by
      cases heq : l.hooked with
      | false =>
        have := hvalid.hooked_iff.not.mp (by simp [heq])
        simp_all
      | true =>
        have := hvalid.hooked_iff.mp heq
        simp_all
    rw [unsubscribe_of_not_mem h, hfilter, hany, ← hhooked]

theorem valid_unsubscribe {l : Listener γ η} (hvalid : l.Valid) (token : Nat)
    : (l.unsubscribe token).2.Valid := by
  rw [unsubscribe_eq hvalid]
  refine ⟨?_, ?_, ?_⟩
  . apply List.Pairwise.sublist List.filter_sublist hvalid.ascending
  . intro sub hsub
    apply hvalid.issued
    apply List.mem_of_mem_filter hsub
  . simp only [Bool.not_eq_true', List.isEmpty_eq_false_iff]

def unsubscribeAll (tokens : List Nat) (l : Listener γ η) : Listener γ η :=
  tokens.foldl (fun l token => (l.unsubscribe token).2) l

theorem valid_unsubscribeAll {l : Listener γ η} (hvalid : l.Valid) (tokens : List Nat)
    : (l.unsubscribeAll tokens).Valid := by
  induction tokens generalizing l with
  | nil => apply hvalid
  | cons token tokens ih =>
    apply ih
    apply valid_unsubscribe hvalid

theorem unsubscribeAll_eq {l : Listener γ η} (hvalid : l.Valid) (tokens : List Nat)
    : (l.unsubscribeAll tokens).subs = l.subs.filter (·.token ∉ tokens)
      ∧ (l.unsubscribeAll tokens).nextToken = l.nextToken := by
  induction tokens generalizing l with
  | nil => simp [unsubscribeAll]
  | cons token tokens ih =>
    have hrest := ih (valid_unsubscribe hvalid token)
    rw [unsubscribe_eq hvalid] at hrest
    have hcons : l.unsubscribeAll (token :: tokens)
        = (l.unsubscribe token).2.unsubscribeAll tokens := rfl
    rw [hcons, unsubscribe_eq hvalid]
    refine ⟨?_, hrest.right⟩
    rw [hrest.left, List.filter_filter]
    apply List.filter_congr
    intro sub _
    by_cases h : sub.token = token <;> simp [h]

end Unsubscribe

section Find

def find (l : Listener γ η) (token : Nat) : Option (γ × η) :=
  (l.subs.find? (·.token = token)).map fun sub => (sub.notificationCode, sub.handler)

theorem find_isSome_iff {l : Listener γ η} {token : Nat}
    : (l.find token).isSome ↔ ∃ sub ∈ l.subs, sub.token = token := by
  simp [find]

theorem find_subscribe {l : Listener γ η} (hvalid : l.Valid) (code : γ) (handler : η) (token : Nat)
    : (l.subscribe code handler).2.find token
      = if token = l.nextToken + 1 then some (code, handler) else l.find token := by
  rw [subscribe_eq]
  simp only [find, List.find?_append]
  split
  . next heq =>
    have hnone : l.subs.find? (·.token = token) = none := by
      rw [List.find?_eq_none]
      intro sub hsub
      have := hvalid.issued sub hsub
      simp only [decide_eq_true_eq]
      omega
    rw [hnone, Option.none_or]
    simp [heq]
  . next hne =>
    have hnone : [(⟨l.nextToken + 1, code, handler⟩ : Subscription γ η)].find? (·.token = token)
        = none := by
      simp [Ne.symm hne]
    rw [hnone, Option.or_none]

theorem find_unsubscribe {l : Listener γ η} (hvalid : l.Valid) (token token' : Nat)
    : (l.unsubscribe token).2.find token' = if token' = token then none else l.find token' := by
  rw [unsubscribe_eq hvalid]
  simp only [find, List.find?_filter]
  split
  . next heq =>
    rw [Option.map_eq_none_iff, List.find?_eq_none]
    intro sub _
    simp [heq]
  . next hne =>
    congr 1
    apply List.find?_congr
    intro sub _
    by_cases h : sub.token = token'
    . simp [h, hne]
    . simp [h]

end Find

section Follows

structure Follows (l l' : Listener γ η) : Prop where
  valid : l'.Valid
  nextToken_le : l.nextToken ≤ l'.nextToken
  subs : ∀ sub ∈ l'.subs, sub ∈ l.subs ∨ l.nextToken < sub.token

theorem follows_refl {l : Listener γ η} (hvalid : l.Valid) : Follows l l where
  valid := hvalid
  nextToken_le := Nat.le_refl _
  subs := fun _ hsub => Or.inl hsub

theorem Follows.trans {l l' l'' : Listener γ η} (h : Follows l l') (h' : Follows l' l'')
    : Follows l l'' where
  valid := h'.valid
  nextToken_le := Nat.le_trans h.nextToken_le h'.nextToken_le
  subs := by
    intro sub hsub
    rcases h'.subs sub hsub with hold | hlt
    . apply h.subs sub hold
    . apply Or.inr (Nat.lt_of_le_of_lt h.nextToken_le hlt)

theorem follows_subscribeAll {l : Listener γ η} (hvalid : l.Valid) (hs : List (γ × η))
    : Follows l (l.subscribeAll hs).2 where
  valid := valid_subscribeAll hvalid hs
  nextToken_le := by
    rw [nextToken_subscribeAll]
    omega
  subs := by
    intro sub hsub
    rw [subscribeAll_eq] at hsub
    rcases List.mem_append.mp hsub with hold | hnew
    . apply Or.inl hold
    . apply Or.inr (token_of_mem_entries hnew).left

theorem nextToken_unsubscribe {l : Listener γ η} (hvalid : l.Valid) (token : Nat)
    : (l.unsubscribe token).2.nextToken = l.nextToken := by
  rw [unsubscribe_eq hvalid]

theorem follows_unsubscribe {l : Listener γ η} (hvalid : l.Valid) (token : Nat)
    : Follows l (l.unsubscribe token).2 where
  valid := valid_unsubscribe hvalid token
  nextToken_le := by rw [nextToken_unsubscribe hvalid]
  subs := fun _ hsub => Or.inl (mem_of_mem_unsubscribe hsub)

def Gone (l : Listener γ η) (token : Nat) : Prop :=
  token ≤ l.nextToken ∧ ∀ sub ∈ l.subs, sub.token ≠ token

theorem Gone.follows {l l' : Listener γ η} {token : Nat} (hgone : l.Gone token)
    (hfollows : Follows l l') : l'.Gone token := by
  rcases hgone with ⟨hle, hnot⟩
  refine ⟨Nat.le_trans hle hfollows.nextToken_le, ?_⟩
  intro sub hsub
  rcases hfollows.subs sub hsub with hold | hlt
  . apply hnot sub hold
  . omega

theorem gone_unsubscribeAll {l : Listener γ η} (hvalid : l.Valid) {tokens : List Nat} {token : Nat}
    (hmem : token ∈ tokens) (hle : token ≤ l.nextToken) : (l.unsubscribeAll tokens).Gone token := by
  rcases unsubscribeAll_eq hvalid tokens with ⟨hsubs, hnext⟩
  unfold Gone
  rw [hsubs, hnext]
  refine ⟨hle, ?_⟩
  intro sub hsub heq
  simp only [List.mem_filter, decide_eq_true_eq] at hsub
  apply hsub.right
  rw [heq]
  apply hmem

end Follows

end Listener
end Idax
