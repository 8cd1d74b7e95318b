import Idax.Decompiler.LvarSettings

/-!
This module contains the question whether saved settings can be put back. A setting has no room for
locations other than a register or the stack, and applying one is reported as a success when only a
part of it is applied.
-/

namespace Idax
namespace Decompiler

variable {τ : Type} (sdk : HexRays τ)

namespace LocalVariableUserSetting

def parsed (setting : LocalVariableUserSetting) : Option τ :=
  if setting.typeDeclaration = "" then none else sdk.parseDecl (terminated setting.typeDeclaration)

def Rejected (setting : LocalVariableUserSetting) : Prop :=
  setting.typeDeclaration ≠ "" ∧ setting.parsed sdk = none ∧ setting.name = "" ∧ setting.comment = ""

def applied (setting : LocalVariableUserSetting) (old : LvarAttributes τ) : LvarAttributes τ :=
  { name := if setting.name = "" then old.name else setting.name
    type := (setting.parsed sdk).or old.type
    cmt := if setting.comment = "" then old.cmt else setting.comment }

end LocalVariableUserSetting

def Replays (db : LvarDatabase τ) (ea : BitVec 64) : Prop :=
  ∀ start : LvarDatabase τ, start = db ∨ start = Function.update db ea none →
    (applyUserLvarSettings sdk start ea (savedUserLvarSettings sdk db ea)).fst = ok
      ∧ ∀ ll, attributes (applyUserLvarSettings sdk start ea (savedUserLvarSettings sdk db ea)).snd ea ll
          = attributes db ea ll

def ReportsTruly (db : LvarDatabase τ) (ea : BitVec 64) (setting : LocalVariableUserSetting) : Prop :=
  (applyUserLvarSetting sdk db ea setting).fst = ok →
    let after := attributes (applyUserLvarSetting sdk db ea setting).snd ea setting.locator.ll
    (setting.name ≠ "" → after.name = setting.name)
      ∧ (setting.comment ≠ "" → after.cmt = setting.comment)
      ∧ (setting.typeDeclaration ≠ "" →
          ∃ type, sdk.parseDecl (terminated setting.typeDeclaration) = some type ∧ after.type = some type)

def Vdloc.Expressible : Vdloc → Prop
  | .none => True
  | .reg1 _ => True
  | .stack _ => True
  | _ => False

def LvarSavedInfo.Blank (info : LvarSavedInfo τ) : Prop :=
  info.name = "" ∧ info.type = none ∧ info.cmt = ""

/--
Each entry with something in it is for a variable in one register or on the stack (or without a
location), and has a type that can be printed, if any.
-/
def LvarUservec.Expressible (settings : LvarUservec τ) : Prop :=
  ∀ info ∈ settings.lvvec, ¬info.Blank →
    info.ll.location.Expressible ∧ ∀ type, info.type = some type → sdk.printType type ≠ ""

section Apply

variable {sdk}

theorem modify_untyped {setting : LocalVariableUserSetting} (hparsed : setting.parsed sdk = none)
    (old : LvarAttributes τ)
    : old.modify
          (if setting.comment = "" then if setting.name = "" then 0 else MLI_NAME
            else (if setting.name = "" then 0 else MLI_NAME) ||| MLI_CMT)
          { ll := setting.locator.ll, name := setting.name, cmt := setting.comment }
        = setting.applied sdk old := by
  by_cases hname : setting.name = "" <;> by_cases hcomment : setting.comment = ""
    <;> simp [LvarAttributes.modify, LocalVariableUserSetting.applied, hparsed, hname, hcomment,
      MLI_NAME, MLI_TYPE, MLI_CMT]

theorem modify_typed {setting : LocalVariableUserSetting} {type : τ}
    (hparsed : setting.parsed sdk = some type) (size : Option Nat) (old : LvarAttributes τ)
    : old.modify
          ((if setting.comment = "" then if setting.name = "" then 0 else MLI_NAME
            else (if setting.name = "" then 0 else MLI_NAME) ||| MLI_CMT) ||| MLI_TYPE)
          { ll := setting.locator.ll, name := setting.name, type := some type, cmt := setting.comment
            size }
        = setting.applied sdk old := by
  by_cases hname : setting.name = "" <;> by_cases hcomment : setting.comment = ""
    <;> simp [LvarAttributes.modify, LocalVariableUserSetting.applied, hparsed, hname, hcomment,
      MLI_NAME, MLI_TYPE, MLI_CMT]

theorem applyUserLvarSetting_rejected (db : LvarDatabase τ) (ea : BitVec 64)
    {setting : LocalVariableUserSetting} (h : setting.Rejected sdk)
    : applyUserLvarSetting sdk db ea setting
        = (.error (.sdk "parse_decl failed" setting.typeDeclaration), db) := by
  rcases h with ⟨htype, hparsed, hname, hcomment⟩
  rw [LocalVariableUserSetting.parsed, if_neg htype] at hparsed
  simp [applyUserLvarSetting, htype, hparsed, hname, hcomment]

variable (hsdk : sdk.Documented)

include hsdk

theorem modifySetting_spec (db : LvarDatabase τ) (ea : BitVec 64) {flags : BitVec 32}
    (hflags : flags &&& ~~~(MLI_NAME ||| MLI_TYPE ||| MLI_CMT) = 0) (info : LvarSavedInfo τ)
    : (modifySetting sdk db ea flags info).fst = ok
        ∧ attributes (modifySetting sdk db ea flags info).snd ea info.ll
            = (attributes db ea info.ll).modify flags info
        ∧ ∀ ll, ll ≠ info.ll →
            attributes (modifySetting sdk db ea flags info).snd ea ll = attributes db ea ll := by
  unfold modifySetting
  by_cases hzero : flags = 0
  . rw [if_pos hzero, hzero]
    refine ⟨rfl, ?_, fun _ _ => rfl⟩
    simp [LvarAttributes.modify]
  . have hvalid : MliValid flags := ⟨hzero, hflags⟩
    have hok := hsdk.modify_succeeds db ea flags info hvalid
    have hsame := hsdk.modify_same db ea flags info hvalid
    have hother := fun ll => hsdk.modify_other db ea flags info ll hvalid
    rw [if_neg hzero]
    rcases hresult : sdk.modifyUserLvarInfo db ea flags info with ⟨done, db'⟩
    rw [hresult] at hok hsame hother
    rw [show done = true from hok]
    exact ⟨rfl, hsame, hother⟩

theorem applyUserLvarSetting_spec (db : LvarDatabase τ) (ea : BitVec 64)
    (setting : LocalVariableUserSetting) (hrejected : ¬setting.Rejected sdk)
    : (applyUserLvarSetting sdk db ea setting).fst = ok
        ∧ attributes (applyUserLvarSetting sdk db ea setting).snd ea setting.locator.ll
            = setting.applied sdk (attributes db ea setting.locator.ll)
        ∧ ∀ ll, ll ≠ setting.locator.ll →
            attributes (applyUserLvarSetting sdk db ea setting).snd ea ll = attributes db ea ll := by
  have hspec {flags : BitVec 32} (info : LvarSavedInfo τ) (hll : info.ll = setting.locator.ll)
      (hflags : flags &&& ~~~(MLI_NAME ||| MLI_TYPE ||| MLI_CMT) = 0)
      (hmodify : (attributes db ea setting.locator.ll).modify flags info
        = setting.applied sdk (attributes db ea setting.locator.ll))
      : (modifySetting sdk db ea flags info).fst = ok
          ∧ attributes (modifySetting sdk db ea flags info).snd ea setting.locator.ll
              = setting.applied sdk (attributes db ea setting.locator.ll)
          ∧ ∀ ll, ll ≠ setting.locator.ll →
              attributes (modifySetting sdk db ea flags info).snd ea ll = attributes db ea ll := by
    have h := modifySetting_spec hsdk db ea hflags info
    rw [hll, hmodify] at h
    exact h
  unfold applyUserLvarSetting
  dsimp only
  split
  . next htype =>
    have hparsed : setting.parsed sdk = none := if_pos htype
    apply hspec _ rfl
    . split <;> split <;> decide
    . apply modify_untyped hparsed
  . next htype =>
    have hparsed : setting.parsed sdk = sdk.parseDecl (terminated setting.typeDeclaration) :=
      if_neg htype
    cases hparse : sdk.parseDecl (terminated setting.typeDeclaration) with
    | some type =>
      rw [hparse] at hparsed
      apply hspec _ rfl
      . split <;> split <;> decide
      . apply modify_typed hparsed
    | none =>
      rw [hparse] at hparsed
      dsimp only
      rw [if_neg]
      . apply hspec _ rfl
        . split <;> split <;> decide
        . apply modify_untyped hparsed
      . intro hflags
        apply hrejected
        refine ⟨htype, hparsed, ?_, ?_⟩
        . by_contra hname
          revert hflags
          rw [if_neg hname]
          split <;> decide
        . by_contra hcomment
          revert hflags
          rw [if_neg hcomment]
          split <;> decide

theorem reportsTruly_iff (db : LvarDatabase τ) (ea : BitVec 64) (setting : LocalVariableUserSetting)
    : ReportsTruly sdk db ea setting
        ↔ setting.typeDeclaration = "" ∨ (setting.parsed sdk).isSome
            ∨ (setting.name = "" ∧ setting.comment = "") := by
  by_cases hrejected : setting.Rejected sdk
  . have herror := applyUserLvarSetting_rejected db ea hrejected
    constructor
    . intro _
      exact .inr (.inr hrejected.right.right)
    . intro _ hok
      rw [herror] at hok
      cases hok
  . have ⟨hok, hsame, _⟩ := applyUserLvarSetting_spec hsdk db ea setting hrejected
    constructor
    . intro htruly
      by_cases htype : setting.typeDeclaration = ""
      . exact .inl htype
      . rcases (htruly hok).right.right htype with ⟨type, hparse, _⟩
        right
        left
        rw [LocalVariableUserSetting.parsed, if_neg htype, hparse]
        rfl
    . intro hcondition _
      dsimp only
      rw [hsame]
      refine ⟨fun hname => if_neg hname, fun hcomment => if_neg hcomment, ?_⟩
      intro htype
      have hparsed : setting.parsed sdk = sdk.parseDecl (terminated setting.typeDeclaration) :=
        if_neg htype
      cases hparse : sdk.parseDecl (terminated setting.typeDeclaration) with
      | some type =>
        rw [hparse] at hparsed
        refine ⟨type, rfl, ?_⟩
        simp [LocalVariableUserSetting.applied, hparsed]
      | none =>
        rw [hparse] at hparsed
        rcases hcondition with hempty | hsome | hblank
        . exact absurd hempty htype
        . rw [hparsed] at hsome
          cases hsome
        . exact absurd ⟨htype, hparsed, hblank⟩ hrejected

end Apply

section Replay

variable {sdk}

theorem make_ll_of_expressible {info : LvarSavedInfo τ} (h : info.ll.location.Expressible)
    : (makeLvarUserSetting sdk info).locator.ll = info.ll := by
  rcases info with ⟨⟨location, defea⟩, name, type, cmt, size⟩
  cases location with
  | none => rfl
  | reg1 reg => rfl
  | stack stkoff => rfl
  | _ => cases h

theorem make_ll_expressible (info : LvarSavedInfo τ)
    : (makeLvarUserSetting sdk info).locator.ll.location.Expressible := by
  rcases info with ⟨⟨location, defea⟩, name, type, cmt, size⟩
  cases location <;> trivial

variable (hsdk : sdk.Documented)

include hsdk

theorem make_parsed {info : LvarSavedInfo τ} (h : ∀ type, info.type = some type → sdk.printType type ≠ "")
    : (makeLvarUserSetting sdk info).parsed sdk = info.type := by
  cases htype : info.type with
  | none => simp [LocalVariableUserSetting.parsed, makeLvarUserSetting, htype]
  | some type =>
    have hprint := h type htype
    simp [LocalVariableUserSetting.parsed, makeLvarUserSetting, htype, hprint, hsdk.parse_print type hprint]

theorem make_not_rejected (info : LvarSavedInfo τ) : ¬(makeLvarUserSetting sdk info).Rejected sdk := by
  intro ⟨hdeclaration, hparsed, _⟩
  rw [make_parsed hsdk] at hparsed
  . simp [makeLvarUserSetting, hparsed] at hdeclaration
  . intro type htype hprint
    simp [makeLvarUserSetting, htype, hprint] at hdeclaration

theorem applied_make_of_blank {info : LvarSavedInfo τ} (h : info.Blank) (old : LvarAttributes τ)
    : (makeLvarUserSetting sdk info).applied sdk old = old := by
  have hparsed : (makeLvarUserSetting sdk info).parsed sdk = none := by
    rw [make_parsed hsdk]
    . exact h.right.left
    . simp [h.right.left]
  ext1
  . exact if_pos h.left
  . rw [LocalVariableUserSetting.applied, hparsed]
    rfl
  . exact if_pos h.right.right

theorem replay_spec {entries : List (LvarSavedInfo τ)} (hnodup : (entries.map (·.ll)).Nodup)
    (hexpressible : ∀ info ∈ entries, ¬info.Blank → info.ll.location.Expressible)
    (start : LvarDatabase τ) (ea : BitVec 64)
    : (applyUserLvarSettings sdk start ea (entries.map (makeLvarUserSetting sdk))).fst = ok
        ∧ ∀ ll,
            attributes (applyUserLvarSettings sdk start ea (entries.map (makeLvarUserSetting sdk))).snd ea ll
              = match entries.find? (·.ll = ll) with
                | none => attributes start ea ll
                | some info => (makeLvarUserSetting sdk info).applied sdk (attributes start ea ll) := by
  induction entries generalizing start with
  | nil => exact ⟨rfl, fun _ => rfl⟩
  | cons info entries ih =>
    rw [List.map_cons, List.nodup_cons] at hnodup
    have ⟨hok, hsame, hother⟩ :=
      applyUserLvarSetting_spec hsdk start ea (makeLvarUserSetting sdk info) (make_not_rejected hsdk info)
    rw [List.map_cons, applyUserLvarSettings]
    rcases hresult : applyUserLvarSetting sdk start ea (makeLvarUserSetting sdk info) with ⟨status, db⟩
    rw [hresult] at hok hsame hother
    rw [show status = .ok () from hok]
    dsimp only
    have hrest := ih hnodup.right (fun info hmem => hexpressible info (List.mem_cons_of_mem _ hmem)) db
    refine ⟨hrest.left, ?_⟩
    -- The entry changes the settings of its own variable, if any.
    have hstep (ll : LvarLocator) : attributes db ea ll
        = if info.ll = ll then
            (makeLvarUserSetting sdk info).applied sdk (attributes start ea ll)
          else
            attributes start ea ll := by
      by_cases hblank : info.Blank
      . rw [applied_make_of_blank hsdk hblank, ite_self]
        by_cases hll : ll = (makeLvarUserSetting sdk info).locator.ll
        . rw [hll]
          exact hsame.trans (applied_make_of_blank hsdk hblank _)
        . exact hother ll hll
      . rw [make_ll_of_expressible (hexpressible info List.mem_cons_self hblank)] at hsame hother
        split
        . next hll =>
          rw [← hll]
          exact hsame
        . next hll => exact hother ll (Ne.symm hll)
    intro ll
    rw [hrest.right ll, List.find?_cons, hstep ll]
    by_cases hll : info.ll = ll
    . have hnone : entries.find? (·.ll = ll) = none := by
        rw [List.find?_eq_none]
        intro other hmem hother
        rw [decide_eq_true_iff] at hother
        apply hnodup.left
        rw [hll, ← hother]
        exact List.mem_map_of_mem hmem
      simp [hll, hnone]
    . simp [hll]

theorem attributes_unexpressible (settings : List (LvarSavedInfo τ)) (start : LvarDatabase τ)
    (ea : BitVec 64) {ll : LvarLocator} (hll : ¬ll.location.Expressible)
    : attributes (applyUserLvarSettings sdk start ea (settings.map (makeLvarUserSetting sdk))).snd ea ll
        = attributes start ea ll := by
  induction settings generalizing start with
  | nil => rfl
  | cons info settings ih =>
    have ⟨hok, _, hother⟩ :=
      applyUserLvarSetting_spec hsdk start ea (makeLvarUserSetting sdk info) (make_not_rejected hsdk info)
    have hne : ll ≠ (makeLvarUserSetting sdk info).locator.ll := by
      intro heq
      rw [heq] at hll
      exact hll (make_ll_expressible info)
    rw [List.map_cons, applyUserLvarSettings]
    rcases hresult : applyUserLvarSetting sdk start ea (makeLvarUserSetting sdk info) with ⟨status, db⟩
    rw [hresult] at hok hother
    rw [show status = .ok () from hok]
    dsimp only
    rw [ih, hother ll hne]

omit hsdk in
theorem text_kept {old text : String} (h : old = "" ∨ old = text)
    : (if text = "" then old else text) = text := by
  split
  . next hempty =>
    rw [hempty] at h ⊢
    rcases h with h | h <;> exact h
  . rfl

theorem applied_make {info : LvarSavedInfo τ}
    (hprint : ∀ type, info.type = some type → sdk.printType type ≠ "") {old : LvarAttributes τ}
    (hold : old = {} ∨ old = info.attributes)
    : (makeLvarUserSetting sdk info).applied sdk old = info.attributes := by
  have hname : old.name = "" ∨ old.name = info.name := by
    rcases hold with h | h <;> simp [h, LvarSavedInfo.attributes]
  have htype : old.type = none ∨ old.type = info.type := by
    rcases hold with h | h <;> simp [h, LvarSavedInfo.attributes]
  have hcmt : old.cmt = "" ∨ old.cmt = info.cmt := by
    rcases hold with h | h <;> simp [h, LvarSavedInfo.attributes]
  rw [LocalVariableUserSetting.applied, make_parsed hsdk hprint]
  ext1
  . apply text_kept hname
  . rcases htype with h | h <;> simp [h, LvarSavedInfo.attributes]
  . apply text_kept hcmt

omit hsdk

theorem LvarUservec.find?_eq (settings : LvarUservec τ) {info : LvarSavedInfo τ}
    (hmem : info ∈ settings.lvvec) : settings.lvvec.find? (·.ll = info.ll) = some info := by
  rcases settings with ⟨entries, hnodup⟩
  dsimp only at hmem ⊢
  induction entries with
  | nil => cases hmem
  | cons other entries ih =>
    rw [List.map_cons, List.nodup_cons] at hnodup
    rcases List.mem_cons.mp hmem with heq | hmem
    . simp [heq]
    . rw [List.find?_cons_of_neg]
      . exact ih hnodup.right hmem
      . intro hother
        rw [decide_eq_true_iff] at hother
        apply hnodup.left
        rw [hother]
        exact List.mem_map_of_mem hmem

theorem attributes_eq {db : LvarDatabase τ} {ea : BitVec 64} {settings : LvarUservec τ}
    (hdb : db ea = some settings) (ll : LvarLocator)
    : attributes db ea ll
        = match settings.lvvec.find? (·.ll = ll) with
          | none => {}
          | some info => info.attributes := by
  cases hfind : settings.lvvec.find? (·.ll = ll) with
  | none => simp [attributes, hdb, hfind]
  | some info => simp [attributes, hdb, hfind]

theorem attributes_update_none (db : LvarDatabase τ) (ea : BitVec 64) (ll : LvarLocator)
    : attributes (Function.update db ea none) ea ll = {} := by
  rw [attributes, Function.update_self]

include hsdk

theorem replays_iff {db : LvarDatabase τ} {ea : BitVec 64} {settings : LvarUservec τ}
    (hdb : db ea = some settings) : Replays sdk db ea ↔ settings.Expressible sdk := by
  have hsaved : savedUserLvarSettings sdk db ea = settings.lvvec.map (makeLvarUserSetting sdk) := by
    rw [savedUserLvarSettings, hdb]
  unfold Replays
  rw [hsaved]
  constructor
  . intro hreplays
    have hempty := (hreplays _ (.inr rfl)).right
    have hlocation (info : LvarSavedInfo τ) (hmem : info ∈ settings.lvvec) (hblank : ¬info.Blank)
        : info.ll.location.Expressible := by
      by_contra hnot
      have hsame := hempty info.ll
      rw [attributes_unexpressible hsdk _ _ ea hnot, attributes_update_none, attributes_eq hdb,
        settings.find?_eq hmem] at hsame
      simp only [LvarSavedInfo.attributes, LvarAttributes.mk.injEq] at hsame
      exact hblank ⟨hsame.left.symm, hsame.right.left.symm, hsame.right.right.symm⟩
    intro info hmem hblank
    refine ⟨hlocation info hmem hblank, ?_⟩
    intro type htype hprint
    have hspec := (replay_spec hsdk settings.nodup hlocation (Function.update db ea none) ea).right info.ll
    rw [hempty info.ll, settings.find?_eq hmem, attributes_eq hdb, settings.find?_eq hmem,
      attributes_update_none] at hspec
    have hlost := congrArg LvarAttributes.type hspec
    simp [LvarSavedInfo.attributes, LocalVariableUserSetting.applied, LocalVariableUserSetting.parsed,
      makeLvarUserSetting, htype, hprint] at hlost
  . intro hexpressible start hstart
    have hspec := replay_spec hsdk settings.nodup (fun info hmem hblank =>
      (hexpressible info hmem hblank).left) start ea
    refine ⟨hspec.left, ?_⟩
    intro ll
    rw [hspec.right ll, attributes_eq hdb]
    have hbefore : attributes start ea ll = {} ∨ attributes start ea ll = attributes db ea ll := by
      rcases hstart with hstart | hstart
      . exact .inr (by rw [hstart])
      . exact .inl (by rw [hstart, attributes_update_none])
    rw [attributes_eq hdb] at hbefore
    cases hfind : settings.lvvec.find? (·.ll = ll) with
    | none =>
      rw [hfind] at hbefore
      rcases hbefore with h | h <;> exact h
    | some info =>
      rw [hfind] at hbefore
      apply applied_make hsdk _ hbefore
      intro type htype
      apply (hexpressible info (List.mem_of_find?_eq_some hfind) _).right type htype
      intro hblank
      rw [hblank.right.left] at htype
      cases htype

/--
Both parts: which settings are put back, and which successes are true.
-/
theorem settings_iff
    : (∀ (db : LvarDatabase τ) (ea : BitVec 64) (settings : LvarUservec τ), db ea = some settings →
          (Replays sdk db ea ↔ settings.Expressible sdk))
        ∧ ∀ (db : LvarDatabase τ) (ea : BitVec 64) (setting : LocalVariableUserSetting),
          (ReportsTruly sdk db ea setting
            ↔ setting.typeDeclaration = "" ∨ (setting.parsed sdk).isSome
                ∨ (setting.name = "" ∧ setting.comment = "")) :=
  ⟨fun _ _ _ hdb => replays_iff hsdk hdb, fun db ea setting => reportsTruly_iff hsdk db ea setting⟩

end Replay

section Example

def LvarUservec.modify (settings : LvarUservec τ) (old : LvarAttributes τ) (flags : BitVec 32)
    (info : LvarSavedInfo τ) : LvarUservec τ where
  lvvec :=
    { info with
      name := (old.modify flags info).name
      type := (old.modify flags info).type
      cmt := (old.modify flags info).cmt } :: settings.lvvec.filter (·.ll ≠ info.ll)
  nodup := by
    rw [List.map_cons, List.nodup_cons]
    constructor
    . intro hmem
      rcases List.mem_map.mp hmem with ⟨other, hother, hll⟩
      have := (List.mem_filter.mp hother).right
      simp [hll] at this
    . exact settings.nodup.sublist (List.filter_sublist.map _)

def intHexRays : HexRays Unit where
  modifyUserLvarInfo db ea flags info :=
    (decide (flags ≠ 0 ∧ flags &&& ~~~(MLI_NAME ||| MLI_TYPE ||| MLI_CMT) = 0),
      Function.update db ea
        (some (((db ea).getD ⟨[], List.nodup_nil⟩).modify (attributes db ea info.ll) flags info)))
  printType _ := "int"
  parseDecl declaration := if declaration = "int;" then some () else none
  getSize _ := some 4

theorem intHexRays_documented : intHexRays.Documented where
  modify_succeeds db ea flags info hflags := decide_eq_true hflags
  modify_same db ea flags info _ := by
    simp [intHexRays, attributes, LvarUservec.modify, LvarSavedInfo.attributes]
  modify_other db ea flags info ll _ hll := by
    have hfilter (entries : List (LvarSavedInfo Unit))
        : (entries.filter (·.ll ≠ info.ll)).find? (·.ll = ll) = entries.find? (·.ll = ll) := by
      rw [List.find?_filter]
      apply congrArg (fun p => entries.find? p)
      funext other
      by_cases hother : other.ll = ll
      . simp [hother, hll]
      . simp [hother]
    simp only [intHexRays, attributes, LvarUservec.modify, Function.update_self]
    rw [List.find?_cons_of_neg (by simpa using Ne.symm hll), hfilter]
    cases db ea <;> rfl
  parse_print type _ := by
    cases type
    decide

theorem settings_iff_int
    : (∀ (db : LvarDatabase Unit) (ea : BitVec 64) (settings : LvarUservec Unit), db ea = some settings →
          (Replays intHexRays db ea ↔ settings.Expressible intHexRays))
        ∧ ∀ (db : LvarDatabase Unit) (ea : BitVec 64) (setting : LocalVariableUserSetting),
          (ReportsTruly intHexRays db ea setting
            ↔ setting.typeDeclaration = "" ∨ (setting.parsed intHexRays).isSome
                ∨ (setting.name = "" ∧ setting.comment = "")) :=
  settings_iff intHexRays_documented

def pairSettings : LvarUservec Unit where
  lvvec := [{ ll := { location := .reg2 0 2, defea := 0x1010 }, name := "key" }]
  nodup := by decide

theorem not_settings
    : intHexRays.Documented
        ∧ ¬Replays intHexRays (fun _ => some pairSettings) 0x1000
        ∧ ¬ReportsTruly intHexRays (fun _ => none) 0x1000
            { locator := { kind := .register, registerId := 8 }, name := "key",
              typeDeclaration := "missing_t" } := by
  refine ⟨intHexRays_documented, ?_, ?_⟩
  . intro h
    have hattributes := (h _ (.inr rfl)).right { location := .reg2 0 2, defea := 0x1010 }
    have hname := congrArg LvarAttributes.name hattributes
    revert hname
    decide
  . intro h
    rcases (h rfl).right.right (by decide) with ⟨type, hparse, _⟩
    have hnone : intHexRays.parseDecl (terminated "missing_t") = none := by decide
    rw [hnone] at hparse
    cases hparse

end Example

end Decompiler
end Idax
