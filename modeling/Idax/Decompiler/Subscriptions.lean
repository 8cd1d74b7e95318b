import Idax.Decompiler.Lifecycle
import Idax.Library.OrderedMap
import Mathlib.Logic.Function.Basic

/-!
The subscriptions to the events of Hex-Rays. There is a map of callbacks for each kind of event, and
one bridge that is installed in Hex-Rays for all of them.
-/

namespace Idax
namespace Decompiler

inductive CallbackMap where
  | maturity
  | funcPrinted
  | refreshPseudocode
  | curpos
  | createHint
  | populatingPopup
  deriving DecidableEq, Repr

def CallbackMap.all : List CallbackMap :=
  [.maturity, .funcPrinted, .refreshPseudocode, .curpos, .createHint, .populatingPopup]

theorem CallbackMap.mem_all (map : CallbackMap) : map ∈ all := by
  cases map <;> decide

/--
The tokens, which the source counts in 64 bits, do not run out.
-/
structure Callbacks (κ : Type u) where
  callbacks : CallbackMap → OrderedMap Nat κ := fun _ => .empty
  nextToken : Nat := 1
  hexraysCallbackInstalled : Bool := false

structure Globals (κ : Type u) extends Callbacks κ where
  lifecycle : Lifecycle := {}

variable {κ : Type u}

namespace Callbacks

def allCallbacksEmpty (s : Callbacks κ) : Bool :=
  CallbackMap.all.all fun map => (s.callbacks map).isEmpty

def eraseFromAnyMap.go (token : Nat) (s : Callbacks κ) : List CallbackMap → Bool × Callbacks κ
  | [] => (false, s)
  | map :: maps =>
    if ((s.callbacks map).find? token).isSome then
      (true, { s with
        callbacks := Function.update s.callbacks map ((s.callbacks map).erase token)
      })
    else
      go token s maps

def eraseFromAnyMap (token : Nat) (s : Callbacks κ) : Bool × Callbacks κ :=
  eraseFromAnyMap.go token s CallbackMap.all

def ensureCallbackInstalled (installs : Bool) (s : Callbacks κ) : Status × Callbacks κ :=
  if s.hexraysCallbackInstalled then
    (ok, s)
  else if !installs then
    (.error (.sdk "install_hexrays_callback failed"), s)
  else
    (ok, { s with hexraysCallbackInstalled := true })

def register (map : CallbackMap) (callback : κ) (s : Callbacks κ) : Nat × Callbacks κ :=
  let token := s.nextToken
  (token, { s with
    nextToken := token + 1
    callbacks := Function.update s.callbacks map ((s.callbacks map).emplace token callback)
  })

def unsubscribe (token : Nat) (s : Callbacks κ) : Status × Callbacks κ :=
  if token = 0 then
    (.error (.validation "Invalid subscription token"), s)
  else
    let (erased, s) := s.eraseFromAnyMap token
    if !erased then
      (.error (.notFound "Decompiler subscription token not found" (toString token)), s)
    else if s.allCallbacksEmpty && s.hexraysCallbackInstalled then
      (ok, { s with hexraysCallbackInstalled := false })
    else
      (ok, s)

end Callbacks

namespace Globals

section Subscribe

structure Answers where
  loaded : Bool
  installs : Bool
  deriving DecidableEq, Repr

def subscribe (map : CallbackMap) (message : String) (callback : Option κ) (answers : Answers)
    (g : Globals κ) : Result Nat × Globals κ :=
  match callback with
  | none => (.error (.validation message), g)
  | some callback =>
    let (status, lifecycle) := g.lifecycle.ensureHexrays answers.loaded
    let g := { g with lifecycle := lifecycle }
    match status with
    | .error e => (.error e, g)
    | .ok () =>
      let (status, callbacks) := g.toCallbacks.ensureCallbackInstalled answers.installs
      let g := { g with toCallbacks := callbacks }
      match status with
      | .error e => (.error e, g)
      | .ok () =>
        let (token, callbacks) := g.toCallbacks.register map callback
        (.ok token, { g with toCallbacks := callbacks })

def onMaturityChanged (callback : Option κ) (answers : Answers)
    : Globals κ → Result Nat × Globals κ :=
  subscribe .maturity "Maturity callback cannot be empty" callback answers

def onFuncPrinted (callback : Option κ) (answers : Answers)
    : Globals κ → Result Nat × Globals κ :=
  subscribe .funcPrinted "func_printed callback cannot be empty" callback answers

def onRefreshPseudocode (callback : Option κ) (answers : Answers)
    : Globals κ → Result Nat × Globals κ :=
  subscribe .refreshPseudocode "refresh_pseudocode callback cannot be empty" callback answers

def onCurposChanged (callback : Option κ) (answers : Answers)
    : Globals κ → Result Nat × Globals κ :=
  subscribe .curpos "curpos callback cannot be empty" callback answers

def onCreateHint (callback : Option κ) (answers : Answers)
    : Globals κ → Result Nat × Globals κ :=
  subscribe .createHint "create_hint callback cannot be empty" callback answers

def onPopulatingPopup (callback : Option κ) (answers : Answers)
    : Globals κ → Result Nat × Globals κ :=
  subscribe .populatingPopup "populating_popup callback cannot be empty" callback answers

end Subscribe

def unsubscribe (token : Nat) (g : Globals κ) : Status × Globals κ :=
  let (status, callbacks) := g.toCallbacks.unsubscribe token
  (status, { g with toCallbacks := callbacks })

end Globals

section Invariant

namespace Callbacks

def find (s : Callbacks κ) (token : Nat) : Option (CallbackMap × κ) :=
  CallbackMap.all.findSome? fun map => ((s.callbacks map).find? token).map (map, ·)

structure Distinct (s : Callbacks κ) : Prop where
  pos : 0 < s.nextToken
  keys : ∀ map, ∀ token ∈ (s.callbacks map).keys, 0 < token ∧ token < s.nextToken
  disjoint : ∀ map map' token, token ∈ (s.callbacks map).keys → token ∈ (s.callbacks map').keys →
    map = map'

structure Valid (s : Callbacks κ) : Prop extends Distinct s where
  installed_iff : s.hexraysCallbackInstalled = true
    ↔ ∃ map token, token ∈ (s.callbacks map).keys

theorem find_eq_some_iff {s : Callbacks κ} (hdistinct : s.Distinct) {token : Nat} {map : CallbackMap}
    {callback : κ}
    : s.find token = some (map, callback) ↔ (s.callbacks map).find? token = some callback := by
  constructor
  . intro hfind
    rcases List.exists_of_findSome?_eq_some hfind with ⟨map', _, hmap⟩
    rcases Option.map_eq_some_iff.mp hmap with ⟨callback', hcallback, heq⟩
    cases heq
    apply hcallback
  . intro hcallback
    have hsome : (s.find token).isSome := by
      rw [find, List.findSome?_isSome_iff]
      exact ⟨map, map.mem_all, by simp [hcallback]⟩
    rcases Option.isSome_iff_exists.mp hsome with ⟨⟨map', callback'⟩, hfind⟩
    rcases List.exists_of_findSome?_eq_some hfind with ⟨map'', _, hmap⟩
    rcases Option.map_eq_some_iff.mp hmap with ⟨callback'', hcallback', heq⟩
    cases heq
    have heq : map = map' := hdistinct.disjoint map map' token
      (OrderedMap.mem_keys_of_find? hcallback) (OrderedMap.mem_keys_of_find? hcallback')
    rw [hfind]
    rw [← heq, hcallback] at hcallback'
    cases hcallback'
    rw [heq]

theorem find_isSome_iff {s : Callbacks κ} {token : Nat}
    : (s.find token).isSome ↔ ∃ map, token ∈ (s.callbacks map).keys := by
  rw [find, List.findSome?_isSome_iff]
  simp only [Option.isSome_map, OrderedMap.mem_keys_iff]
  constructor
  . rintro ⟨map, _, h⟩
    exact ⟨map, h⟩
  . rintro ⟨map, h⟩
    exact ⟨map, map.mem_all, h⟩

theorem find_ext {s s' : Callbacks κ} {token token' : Nat}
    (h : ∀ map callback, s'.find token' = some (map, callback) ↔ s.find token = some (map, callback))
    : s'.find token' = s.find token := by
  apply Option.ext
  rintro ⟨map, callback⟩
  apply h

end Callbacks

end Invariant

section Register

namespace Callbacks

theorem valid_initial : ({} : Callbacks κ).Valid where
  pos := Nat.one_pos
  keys := by simp
  disjoint := by simp
  installed_iff := by simp

theorem register_eq {s : Callbacks κ} (hdistinct : s.Distinct) (map : CallbackMap) (callback : κ)
    : s.register map callback = (s.nextToken, { s with
        nextToken := s.nextToken + 1
        callbacks := Function.update s.callbacks map
          ((s.callbacks map).insert s.nextToken callback)
      }) := by
  have hnone : (s.callbacks map).find? s.nextToken = none := by
    rw [← Option.not_isSome_iff_eq_none, ← OrderedMap.mem_keys_iff]
    intro hmem
    have := (hdistinct.keys map s.nextToken hmem).right
    omega
  simp only [register, OrderedMap.emplace, hnone, Option.isSome_none, Bool.false_eq_true, if_false]

theorem mem_keys_register {s : Callbacks κ} (hdistinct : s.Distinct) (map : CallbackMap)
    (callback : κ) (map' : CallbackMap) (token : Nat)
    : token ∈ ((s.register map callback).2.callbacks map').keys
      ↔ (map' = map ∧ token = s.nextToken) ∨ token ∈ (s.callbacks map').keys := by
  rw [register_eq hdistinct]
  by_cases h : map' = map
  . subst h
    simp
  . simp [h]

theorem valid_register {s : Callbacks κ} (hdistinct : s.Distinct)
    (hinstalled : s.hexraysCallbackInstalled = true) (map : CallbackMap) (callback : κ)
    : (s.register map callback).2.Valid := by
  refine ⟨⟨?pos, ?keys, ?disjoint⟩, ?installed_iff⟩
  case pos => simp [register]
  case keys =>
    intro map' token hmem
    rw [mem_keys_register hdistinct] at hmem
    have hpos := hdistinct.pos
    simp only [register]
    rcases hmem with ⟨_, heq⟩ | hold
    . omega
    . have := hdistinct.keys map' token hold
      omega
  case disjoint =>
    intro map₁ map₂ token h₁ h₂
    rw [mem_keys_register hdistinct] at h₁ h₂
    rcases h₁ with ⟨h₁, heq₁⟩ | hold₁
    . rcases h₂ with ⟨h₂, _⟩ | hold₂
      . rw [h₁, h₂]
      . have := (hdistinct.keys map₂ token hold₂).right
        omega
    . rcases h₂ with ⟨_, heq₂⟩ | hold₂
      . have := (hdistinct.keys map₁ token hold₁).right
        omega
      . apply hdistinct.disjoint map₁ map₂ token hold₁ hold₂
  case installed_iff =>
    have hflag : (s.register map callback).2.hexraysCallbackInstalled = true := hinstalled
    simp only [hflag, true_iff]
    refine ⟨map, s.nextToken, ?_⟩
    rw [mem_keys_register hdistinct]
    exact Or.inl ⟨rfl, rfl⟩

theorem find_register {s : Callbacks κ} (hdistinct : s.Distinct)
    (hinstalled : s.hexraysCallbackInstalled = true) (map : CallbackMap) (callback : κ) (token : Nat)
    : (s.register map callback).2.find token
      = if token = s.nextToken then some (map, callback) else s.find token := by
  have hvalid' := valid_register hdistinct hinstalled map callback
  split
  . next heq =>
    rw [find_eq_some_iff hvalid'.toDistinct, register_eq hdistinct, heq]
    simp
  . next hne =>
    apply find_ext
    intro map' callback'
    rw [find_eq_some_iff hvalid'.toDistinct, find_eq_some_iff hdistinct, register_eq hdistinct]
    by_cases h : map' = map
    . subst h
      simp [hne]
    . simp [Function.update_of_ne h]

end Callbacks

end Register

section Unsubscribe

namespace Callbacks

theorem go_of_not_mem {s : Callbacks κ} {token : Nat}
    (h : ∀ map, token ∉ (s.callbacks map).keys) (maps : List CallbackMap)
    : eraseFromAnyMap.go token s maps = (false, s) := by
  induction maps with
  | nil => rfl
  | cons map maps ih =>
    have hnone := h map
    rw [OrderedMap.mem_keys_iff] at hnone
    rw [eraseFromAnyMap.go, if_neg hnone, ih]

theorem go_of_mem {s : Callbacks κ} (hdistinct : s.Distinct) {map : CallbackMap} {token : Nat}
    (hkey : token ∈ (s.callbacks map).keys) {maps : List CallbackMap} (hmem : map ∈ maps)
    : eraseFromAnyMap.go token s maps = (true, { s with
        callbacks := Function.update s.callbacks map ((s.callbacks map).erase token)
      }) := by
  induction maps with
  | nil => cases hmem
  | cons map' maps ih =>
    rw [eraseFromAnyMap.go]
    split
    . next hsome =>
      rw [← OrderedMap.mem_keys_iff] at hsome
      rw [hdistinct.disjoint map' map token hsome hkey]
    . next hnone =>
      apply ih
      rcases List.mem_cons.mp hmem with heq | hrest
      . rw [← OrderedMap.mem_keys_iff, ← heq] at hnone
        exact absurd hkey hnone
      . apply hrest

theorem unsubscribe_of_not_mem {s : Callbacks κ} {token : Nat}
    (h : ∀ map, token ∉ (s.callbacks map).keys)
    : ∃ e, s.unsubscribe token = (.error e, s) := by
  unfold unsubscribe eraseFromAnyMap
  split
  . exact ⟨_, rfl⟩
  . rw [go_of_not_mem h]
    exact ⟨_, rfl⟩

def without (token : Nat) (map : CallbackMap) (s : Callbacks κ) : Callbacks κ :=
  { s with callbacks := Function.update s.callbacks map ((s.callbacks map).erase token) }

theorem mem_keys_without {s : Callbacks κ} (hdistinct : s.Distinct) {map : CallbackMap} {token : Nat}
    (hkey : token ∈ (s.callbacks map).keys) (map' : CallbackMap) (token' : Nat)
    : token' ∈ ((s.without token map).callbacks map').keys
      ↔ token' ∈ (s.callbacks map').keys ∧ token' ≠ token := by
  unfold without
  by_cases h : map' = map
  . subst h
    simp
  . simp only [Function.update_of_ne h]
    constructor
    . intro hmem
      refine ⟨hmem, ?_⟩
      intro heq
      apply h
      apply hdistinct.disjoint map' map token _ hkey
      rw [← heq]
      apply hmem
    . intro hmem
      apply hmem.left

theorem unsubscribe_of_mem {s : Callbacks κ} (hvalid : s.Valid) {map : CallbackMap} {token : Nat}
    (hkey : token ∈ (s.callbacks map).keys)
    : s.unsubscribe token = (ok, { s.without token map with
        hexraysCallbackInstalled := !(s.without token map).allCallbacksEmpty
      }) := by
  have hpos : ¬ token = 0 := by
    have := (hvalid.keys map token hkey).left
    omega
  have hinstalled : s.hexraysCallbackInstalled = true :=
    hvalid.installed_iff.mpr ⟨map, token, hkey⟩
  unfold unsubscribe eraseFromAnyMap
  rw [if_neg hpos, go_of_mem hvalid.toDistinct hkey map.mem_all]
  unfold without
  simp only [Bool.not_true, Bool.false_eq_true, if_false, hinstalled, Bool.and_true]
  split
  . next hempty => rw [hempty, Bool.not_true]
  . next hnonempty =>
    rw [Bool.eq_false_iff.mpr hnonempty, Bool.not_false]

theorem allCallbacksEmpty_iff (s : Callbacks κ)
    : s.allCallbacksEmpty = true ↔ ¬ ∃ map token, token ∈ (s.callbacks map).keys := by
  unfold allCallbacksEmpty
  simp only [List.all_eq_true, OrderedMap.isEmpty_iff, not_exists]
  constructor
  . intro h map token hmem
    rw [h map map.mem_all] at hmem
    cases hmem
  . intro h map _
    apply List.eq_nil_iff_forall_not_mem.mpr
    apply h map

theorem valid_unsubscribe {s : Callbacks κ} (hvalid : s.Valid) (token : Nat)
    : (s.unsubscribe token).2.Valid := by
  by_cases h : ∃ map, token ∈ (s.callbacks map).keys
  . rcases h with ⟨map, hkey⟩
    rw [unsubscribe_of_mem hvalid hkey]
    refine ⟨⟨?pos, ?keys, ?disjoint⟩, ?installed_iff⟩
    case pos => apply hvalid.pos
    case keys =>
      intro map' token' hmem
      rw [mem_keys_without hvalid.toDistinct hkey] at hmem
      apply hvalid.keys map' token' hmem.left
    case disjoint =>
      intro map₁ map₂ token' h₁ h₂
      rw [mem_keys_without hvalid.toDistinct hkey] at h₁ h₂
      apply hvalid.disjoint map₁ map₂ token' h₁.left h₂.left
    case installed_iff =>
      rw [Bool.not_eq_true', Bool.eq_false_iff, Ne, allCallbacksEmpty_iff, not_not]
  . rw [not_exists] at h
    rcases unsubscribe_of_not_mem h with ⟨e, heq⟩
    rw [heq]
    apply hvalid

theorem find_unsubscribe {s : Callbacks κ} (hvalid : s.Valid) {map : CallbackMap} {token : Nat}
    (hkey : token ∈ (s.callbacks map).keys) (token' : Nat)
    : (s.unsubscribe token).2.find token' = if token' = token then none else s.find token' := by
  have hvalid' := valid_unsubscribe hvalid token
  split
  . next heq =>
    rw [← Option.not_isSome_iff_eq_none, find_isSome_iff, unsubscribe_of_mem hvalid hkey]
    rintro ⟨map', hmem⟩
    rw [mem_keys_without hvalid.toDistinct hkey] at hmem
    apply hmem.right heq
  . next hne =>
    apply find_ext
    intro map' callback
    rw [find_eq_some_iff hvalid'.toDistinct, find_eq_some_iff hvalid.toDistinct,
      unsubscribe_of_mem hvalid hkey]
    unfold without
    by_cases h : map' = map
    . subst h
      simp [hne]
    . simp [Function.update_of_ne h]

end Callbacks

end Unsubscribe

section Requests

inductive Request (κ : Type u) where
  | onMaturityChanged (callback : Option κ)
  | onFuncPrinted (callback : Option κ)
  | onRefreshPseudocode (callback : Option κ)
  | onCurposChanged (callback : Option κ)
  | onCreateHint (callback : Option κ)
  | onPopulatingPopup (callback : Option κ)
  deriving DecidableEq, Repr

namespace Request

def run (answers : Globals.Answers) : Request κ → Globals κ → Result Nat × Globals κ
  | .onMaturityChanged callback => Globals.onMaturityChanged callback answers
  | .onFuncPrinted callback => Globals.onFuncPrinted callback answers
  | .onRefreshPseudocode callback => Globals.onRefreshPseudocode callback answers
  | .onCurposChanged callback => Globals.onCurposChanged callback answers
  | .onCreateHint callback => Globals.onCreateHint callback answers
  | .onPopulatingPopup callback => Globals.onPopulatingPopup callback answers

def subscription : Request κ → CallbackMap × Option κ
  | .onMaturityChanged callback => (.maturity, callback)
  | .onFuncPrinted callback => (.funcPrinted, callback)
  | .onRefreshPseudocode callback => (.refreshPseudocode, callback)
  | .onCurposChanged callback => (.curpos, callback)
  | .onCreateHint callback => (.createHint, callback)
  | .onPopulatingPopup callback => (.populatingPopup, callback)

theorem exists_run_eq (answers : Globals.Answers) (request : Request κ)
    : ∃ message, request.run answers
        = Globals.subscribe request.subscription.1 message request.subscription.2 answers := by
  cases request <;> exact ⟨_, rfl⟩

theorem run_cases (answers : Globals.Answers) (request : Request κ) (g : Globals κ)
    : (∃ e, (request.run answers g).1 = .error e
        ∧ (request.run answers g).2.toCallbacks = g.toCallbacks)
      ∨ ∃ callback, request.subscription.2 = some callback
        ∧ (request.run answers g).1 = .ok g.nextToken
        ∧ (request.run answers g).2.toCallbacks
          = (Callbacks.register request.subscription.1 callback
              { g.toCallbacks with hexraysCallbackInstalled := true }).2 := by
  rcases request.exists_run_eq answers with ⟨message, hrun⟩
  rw [hrun]
  cases hcallback : request.subscription.2 with
  | none => exact Or.inl ⟨_, rfl, rfl⟩
  | some callback =>
    simp only [Globals.subscribe]
    cases hensure : (g.lifecycle.ensureHexrays answers.loaded).1 with
    | error e => exact Or.inl ⟨_, rfl, rfl⟩
    | ok _ =>
      cases hinstalled : g.hexraysCallbackInstalled with
      | true =>
        right
        refine ⟨callback, rfl, ?_⟩
        simp [Callbacks.ensureCallbackInstalled, hinstalled, ok, Callbacks.register]
      | false =>
        cases hinstalls : answers.installs with
        | false =>
          left
          simp [Callbacks.ensureCallbackInstalled, hinstalled]
        | true =>
          right
          refine ⟨callback, rfl, ?_⟩
          simp [Callbacks.ensureCallbackInstalled, hinstalled, ok, Callbacks.register]

theorem run_ok_iff (answers : Globals.Answers) (request : Request κ) (g : Globals κ)
    : (∃ token, (request.run answers g).1 = .ok token)
        ↔ request.subscription.2.isSome ∧ (g.lifecycle.ensureHexrays answers.loaded).1 = ok
          ∧ (g.hexraysCallbackInstalled ∨ answers.installs) := by
  rcases request.exists_run_eq answers with ⟨message, hrun⟩
  rw [hrun]
  cases request.subscription.2 with
  | none => simp [Globals.subscribe]
  | some callback =>
    simp only [Globals.subscribe]
    cases hensure : (g.lifecycle.ensureHexrays answers.loaded).1 with
    | error e => simp [ok]
    | ok _ =>
      cases hinstalled : g.hexraysCallbackInstalled with
      | true => simp [Callbacks.ensureCallbackInstalled, hinstalled, ok]
      | false =>
        cases hinstalls : answers.installs with
        | false => simp [Callbacks.ensureCallbackInstalled, hinstalled]
        | true => simp [Callbacks.ensureCallbackInstalled, hinstalled, ok]

end Request

end Requests

end Decompiler
end Idax
