import Idax.Fixup.Descriptor

/-!
This module contains the question what is left of a fixup that is read and written back. The kind of a
descriptor has no room for the id of a custom handler, and its selector is narrower than the kernel's.
-/

namespace Idax
namespace Fixup

def Listed (ft : FixupType) : Prop :=
  ∃ kind, unmapFixupType kind = ft

theorem map_unmap : Function.LeftInverse mapFixupType unmapFixupType := by
  intro kind
  cases kind <;> rfl

theorem unmap_map_iff (ft : FixupType) : unmapFixupType (mapFixupType ft) = ft ↔ Listed ft := by
  constructor
  . intro h
    exact ⟨_, h⟩
  . intro ⟨kind, h⟩
    rw [← h, map_unmap kind]

theorem selector_kept_iff (sel : BitVec 64)
    : (sel.setWidth 16).setWidth 64 = sel ↔ sel.toNat < 2 ^ 16 := by
  rw [← BitVec.toNat_inj, BitVec.toNat_setWidth, BitVec.toNat_setWidth]
  omega

variable (sdk : Sdk)

def RestoresFixup (db : Database) (source : Nat) (fd : FixupData) : Prop :=
  ∃ fixup fd', Fixup.at sdk db source = .ok fixup
    ∧ (set sdk db source fixup).fst = ok
    ∧ (set sdk db source fixup).snd.getFixup source = some fd'
    ∧ fd'.type = fd.type
    ∧ fd'.flags = fd.flags
    ∧ fd'.sel = fd.sel
    ∧ fd'.off = fd.off
    ∧ fd'.displacement = fd.displacement
    ∧ sdk.getBase fd' = sdk.getBase fd

/--
The fixups whose type and selector fit into a descriptor and, where they are relative to a base, whose
offset stays where it is when the base is set.
-/
structure FixupData.FitsDescriptor (fd : FixupData) : Prop where
  listed : Listed fd.type
  selector : fd.sel.toNat < 2 ^ 16
  offset : fd.isRel → fd.base ≠ 0 → (sdk.setBase { fd with base := 0 } fd.base).off = fd.off

def rewritten (fd : FixupData) : FixupData :=
  { fd with
    type := unmapFixupType (mapFixupType fd.type)
    base := 0
    sel := (fd.sel.setWidth 16).setWidth 64 }

variable {sdk}

theorem getFixup_set (db : Database) (source : Nat) (fixup : Descriptor)
    : (set sdk db source fixup).snd.getFixup source = some (fixupData sdk fixup) := by
  simp [set, Database.setFixup, Database.getFixup]

theorem fixupData_makeDescriptor (source : Nat) (fd : FixupData)
    : fixupData sdk (makeDescriptor sdk source fd)
        = if fd.isRel ∧ sdk.getBase fd ≠ 0 then
            sdk.setBase (rewritten fd) (sdk.getBase fd)
          else
            rewritten fd := by
  rfl

theorem rewritten_isRel (fd : FixupData) : (rewritten fd).isRel ↔ fd.isRel := by
  rfl

theorem restoresFixup_iff_of_stored {db : Database} {source : Nat} {fd : FixupData}
    (hstored : db.getFixup source = some fd)
    : RestoresFixup sdk db source fd
        ↔ (fixupData sdk (makeDescriptor sdk source fd)).type = fd.type
            ∧ (fixupData sdk (makeDescriptor sdk source fd)).flags = fd.flags
            ∧ (fixupData sdk (makeDescriptor sdk source fd)).sel = fd.sel
            ∧ (fixupData sdk (makeDescriptor sdk source fd)).off = fd.off
            ∧ (fixupData sdk (makeDescriptor sdk source fd)).displacement = fd.displacement
            ∧ sdk.getBase (fixupData sdk (makeDescriptor sdk source fd)) = sdk.getBase fd := by
  have hat : Fixup.at sdk db source = .ok (makeDescriptor sdk source fd) := by
    simp [Fixup.at, hstored]
  constructor
  . intro ⟨fixup, fd', hfixup, _, hfd', h⟩
    rw [hat] at hfixup
    injection hfixup with hfixup
    rw [getFixup_set, ← hfixup] at hfd'
    injection hfd' with hfd'
    rw [hfd']
    exact h
  . intro h
    exact ⟨_, _, hat, rfl, getFixup_set db source _, h⟩

theorem rewritten_eq_of_fits {fd : FixupData} (hlisted : Listed fd.type)
    (hselector : fd.sel.toNat < 2 ^ 16) : rewritten fd = { fd with base := 0 } := by
  unfold rewritten
  rw [(unmap_map_iff fd.type).mpr hlisted, (selector_kept_iff fd.sel).mpr hselector]

/--
A fixup survives being read and written back exactly when it fits into a descriptor.
-/
theorem restoresFixup_iff (hsdk : sdk.Documented) {db : Database} {source : Nat} {fd : FixupData}
    (hstored : db.getFixup source = some fd)
    : RestoresFixup sdk db source fd ↔ fd.FitsDescriptor sdk := by
  rw [restoresFixup_iff_of_stored hstored, fixupData_makeDescriptor]
  by_cases hset : fd.isRel ∧ sdk.getBase fd ≠ 0
  . have hbase := hsdk.getBase_of_rel fd hset.left
    rw [if_pos hset, hsdk.setBase_type, hsdk.setBase_sel, hsdk.setBase_displacement,
      hsdk.setBase_flags _ _ ((rewritten_isRel fd).mpr hset.left)]
    constructor
    . intro ⟨htype, _, hsel, hoff, _, _⟩
      have hlisted := (unmap_map_iff fd.type).mp htype
      have hselector := (selector_kept_iff fd.sel).mp hsel
      rw [rewritten_eq_of_fits hlisted hselector, hbase] at hoff
      exact ⟨hlisted, hselector, fun _ _ => hoff⟩
    . intro ⟨hlisted, hselector, hoffset⟩
      have hrel : (sdk.setBase { fd with base := 0 } fd.base).isRel := by
        have hflags := hsdk.setBase_flags { fd with base := 0 } fd.base hset.left
        unfold FixupData.isRel
        rw [hflags]
        exact hset.left
      rw [rewritten_eq_of_fits hlisted hselector, hbase]
      refine ⟨rfl, rfl, rfl, ?_, rfl, ?_⟩
      . apply hoffset hset.left
        rw [← hbase]
        exact hset.right
      . rw [hsdk.getBase_of_rel _ hrel, hsdk.setBase_base]
  . rw [if_neg hset]
    constructor
    . intro ⟨htype, _, hsel, _⟩
      refine ⟨(unmap_map_iff fd.type).mp htype, (selector_kept_iff fd.sel).mp hsel, ?_⟩
      intro hrel hbase
      rw [← hsdk.getBase_of_rel fd hrel] at hbase
      exact absurd ⟨hrel, hbase⟩ hset
    . intro ⟨hlisted, hselector, _⟩
      rw [rewritten_eq_of_fits hlisted hselector]
      refine ⟨rfl, rfl, rfl, rfl, rfl, ?_⟩
      by_cases hrel : fd.isRel
      . have hzero : sdk.getBase fd = 0 := by
          by_contra hne
          exact hset ⟨hrel, hne⟩
        rw [hzero]
        apply hsdk.getBase_of_rel { fd with base := 0 } hrel
      . apply hsdk.getBase_of_sel { fd with base := 0 } fd hrel hrel rfl

def flatSdk : Sdk where
  getBase fd := if fd.isRel then fd.base else 0
  setBase fd base := { fd with base }

theorem flatSdk_documented : flatSdk.Documented where
  getBase_of_rel fd hrel := if_pos hrel
  getBase_of_sel fd fd' hrel hrel' _ := by
    simp only [flatSdk]
    rw [if_neg hrel, if_neg hrel']
  setBase_base _ _ := rfl
  setBase_type _ _ := rfl
  setBase_flags _ _ _ := rfl
  setBase_sel _ _ := rfl
  setBase_displacement _ _ := rfl

def single (source : Nat) (fd : FixupData) : Database :=
  { fixups := fun ea => if ea = source then some fd else none }

theorem restoresFixup_iff_relative
    : RestoresFixup flatSdk (single 0x1000 ⟨FIXUP_OFF64, 1, 0x400000, 3, 0x20, 0⟩) 0x1000
          ⟨FIXUP_OFF64, 1, 0x400000, 3, 0x20, 0⟩
        ↔ FixupData.FitsDescriptor flatSdk ⟨FIXUP_OFF64, 1, 0x400000, 3, 0x20, 0⟩ := by
  apply restoresFixup_iff flatSdk_documented
  rfl

theorem not_restoresFixup_custom
    : flatSdk.Documented
        ∧ (single 0x1000 { type := FIXUP_CUSTOM + 1 }).getFixup 0x1000 = some { type := FIXUP_CUSTOM + 1 }
        ∧ ¬RestoresFixup flatSdk (single 0x1000 { type := FIXUP_CUSTOM + 1 }) 0x1000
            { type := FIXUP_CUSTOM + 1 } := by
  refine ⟨flatSdk_documented, rfl, ?_⟩
  rw [restoresFixup_iff_of_stored rfl]
  decide

end Fixup
end Idax
