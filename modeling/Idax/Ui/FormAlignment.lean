import Mathlib.Data.List.TakeWhile
import Idax.Library.FormPieces
import Idax.Ui.FormBuilder

/-!
This module contains what a form is read as that a builder wrote, and when the controls of the markup are
the ones of the bindings that go with it.
-/

namespace Idax
namespace Ui

inductive AddCall where
  | int (label : FormText) (value : Nat) (width visibleWidth : Int)
  | sval (label : FormText) (value : Nat) (width visibleWidth : Int)
  | bitset (groupLabel : FormText) (value : Nat) (choices : List FormText)
  | radio (groupLabel : FormText) (value : Nat) (choices : List FormText)
  | address (label : FormText) (value : Nat) (width visibleWidth : Int)
  | text (label : FormText) (value : Nat) (width visibleWidth : Int)
  | path (label : FormText) (value : Nat) (forSaving : Bool) (visibleWidth : Int)
  deriving DecidableEq, Repr

namespace AddCall

def apply (builder : FormBuilder) : AddCall → FormBuilder
  | .int label value width visibleWidth => builder.addInt label value width visibleWidth
  | .sval label value width visibleWidth => builder.addSval label value width visibleWidth
  | .bitset groupLabel value choices => builder.addBitset groupLabel value choices
  | .radio groupLabel value choices => builder.addRadio groupLabel value choices
  | .address label value width visibleWidth => builder.addAddress label value width visibleWidth
  | .text label value width visibleWidth => builder.addText label value width visibleWidth
  | .path label value forSaving visibleWidth => builder.addPath label value forSaving visibleWidth

def control : AddCall → FormMarkup.Control
  | .int .. | .sval .. => .field 'D'
  | .bitset _ _ choices => .group 'C' (max 1 choices.length)
  | .radio _ _ choices => .group 'R' (max 1 choices.length)
  | .address .. => .field '$'
  | .text .. => .field 'q'
  | .path .. => .field 'f'

def binding : AddCall → FormBinding
  | .int _ value _ _ => .int value
  | .sval _ value _ _ => .sval value
  | .bitset _ value _ | .radio _ value _ => .u16 value
  | .address _ value _ _ => .address value
  | .text _ value _ _ => .text value
  | .path _ value forSaving _ => .path value forSaving

def texts : AddCall → List FormText
  | .int label _ _ _ | .sval label _ _ _ | .address label _ _ _ | .text label _ _ _
  | .path label _ _ _ => [label]
  | .bitset groupLabel _ choices | .radio groupLabel _ choices => groupLabel :: choices

end AddCall

def FormBuilder.start : Option FormText → FormBuilder
  | none => {}
  | some title => .ofTitle title

def FormBuilder.ofCalls (title : Option FormText) (calls : List AddCall) : FormBuilder :=
  calls.foldl AddCall.apply (.start title)

def Takes : FormMarkup.Control → FormValue → Prop
  | .field type, .sval _ => type = 'D'
  | .field type, .ea _ => type = '$'
  | .field type, .qstring _ => type = 'q'
  | .field type, .path _ => type = 'f'
  | .group type _, .ushort _ => type = 'C' ∨ type = 'R'
  | _, _ => False

structure Aligned (builder : FormBuilder) (calls : List AddCall) : Prop where
  controls : FormMarkup.parse builder.markup = some (calls.map AddCall.control)
  bindings : builder.bindings = calls.map AddCall.binding
  passed : ∀ qmaxpath memory call, builder.call qmaxpath memory = .ok call →
    call.markup = builder.markup
      ∧ List.Forall₂
          (fun added value =>
            Takes added.control value ∧ added.binding.prepare qmaxpath memory = .ok value)
          calls call.args

section Numbers

theorem isDigit_of_mem_decimal {n : Int} (hn : 0 ≤ n) {c : Char} (hc : c ∈ decimal n) : c.isDigit := by
  unfold decimal at hc
  rw [if_neg (by omega)] at hc
  exact Nat.isDigit_of_mem_toDigits (by decide) (by decide) hc

def width (n : Int) : FormText :=
  if 0 ≤ n then decimal n else []

theorem isDigit_of_mem_width {n : Int} {c : Char} (hc : c ∈ width n) : c.isDigit := by
  unfold width at hc
  split at hc
  . next hn => apply isDigit_of_mem_decimal hn hc
  . cases hc

theorem plain_width (n : Int) : FormMarkup.Plain (width n) := by
  intro c hc
  have hdigit := isDigit_of_mem_width hc
  refine ⟨?_, ?_, ?_⟩
  . rintro rfl
    cases hdigit
  . rintro rfl
    cases hdigit
  . rintro rfl
    cases hdigit

theorem zero_not_mem_width (n : Int) : '\x00' ∉ width n := by
  intro hc
  cases isDigit_of_mem_width hc

theorem appendFormField_eq (markup label : FormText) (type : Char) (n m : Int)
    : appendFormField markup label type n m
        = markup ++ FormMarkup.fieldText label type (width n) (width m) := by
  unfold appendFormField FormMarkup.fieldText width
  split
  . split
    . simp
    . simp
  . split
    . simp
    . simp

end Numbers

section Groups

def lead (groupLabel : FormText) (i : Nat) : FormText :=
  if i = 0 ∧ groupLabel ≠ [] then "##".toList ++ groupLabel ++ "##".toList else []

variable {groupLabel : FormText} {type : Char} {size : Nat}

theorem append_lead (markup : FormText) (i : Nat)
    : (if i = 0 ∧ groupLabel ≠ [] then markup ++ "##".toList ++ groupLabel ++ "##".toList else markup)
        = markup ++ lead groupLabel i := by
  unfold lead
  split
  . simp
  . simp

theorem appendChoice_last {i : Nat} (markup choice : FormText) (h : i + 1 = size)
    : appendChoice groupLabel type size markup (choice, i)
        = markup ++ FormMarkup.groupText type (lead groupLabel i ++ choice) [] := by
  simp only [appendChoice]
  rw [append_lead, if_pos h]
  simp [FormMarkup.groupText]

theorem appendChoice_of_ne {i : Nat} (markup choice : FormText) (h : i + 1 ≠ size)
    : appendChoice groupLabel type size markup (choice, i)
        = markup ++ ['<'] ++ (lead groupLabel i ++ choice ++ [':', type, '>']) ++ ['\n'] := by
  simp only [appendChoice]
  rw [append_lead, if_neg h]
  simp

theorem foldl_appendChoice {i : Nat} (markup choice : FormText) (choices : List FormText)
    (h : i + 1 + choices.length = size)
    : ((choice :: choices).zipIdx i).foldl (appendChoice groupLabel type size) markup
        = markup ++ FormMarkup.groupText type (lead groupLabel i ++ choice) choices := by
  induction choices generalizing markup choice i with
  | nil => apply appendChoice_last markup choice h
  | cons next choices ih =>
    rw [List.length_cons] at h
    have hlead : lead groupLabel (i + 1) = [] := by simp [lead]
    rw [List.zipIdx_cons, List.foldl_cons, ih _ _ (by omega), hlead,
      appendChoice_of_ne markup choice (by omega)]
    simp [FormMarkup.groupText]

def groupChoices (groupLabel : FormText) : List FormText → FormText × List FormText
  | [] => (lead groupLabel 0 ++ groupLabel, [])
  | choice :: choices => (lead groupLabel 0 ++ choice, choices)

theorem appendChoiceGroup_eq (markup groupLabel : FormText) (type : Char) (choices : List FormText)
    : appendChoiceGroup markup groupLabel type choices
        = markup ++ FormMarkup.groupText type (groupChoices groupLabel choices).fst
          (groupChoices groupLabel choices).snd := by
  unfold appendChoiceGroup
  cases choices with
  | nil => apply foldl_appendChoice _ _ [] rfl
  | cons choice choices =>
    apply foldl_appendChoice
    rw [if_neg (List.cons_ne_nil choice choices), List.length_cons]
    omega

theorem plain_lead_iff (groupLabel : FormText)
    : FormMarkup.Plain (lead groupLabel 0) ↔ FormMarkup.Plain groupLabel := by
  have hmark : FormMarkup.Plain "##".toList := by decide
  unfold lead
  split
  . rw [FormMarkup.plain_append, FormMarkup.plain_append]
    simp only [hmark, true_and, and_true]
  . next h =>
    have hnil : groupLabel = [] := by simpa using h
    rw [hnil]

theorem plain_groupChoices_iff (groupLabel : FormText) (choices : List FormText)
    : (∀ label ∈ (groupChoices groupLabel choices).fst :: (groupChoices groupLabel choices).snd,
          FormMarkup.Plain label)
        ↔ ∀ text ∈ groupLabel :: choices, FormMarkup.Plain text := by
  cases choices with
  | nil => simp [groupChoices, FormMarkup.plain_append, plain_lead_iff]
  | cons choice choices =>
    simp [groupChoices, FormMarkup.plain_append, plain_lead_iff, and_assoc]

theorem length_groupChoices (groupLabel : FormText) (choices : List FormText)
    : (groupChoices groupLabel choices).snd.length + 1 = max 1 choices.length := by
  cases choices with
  | nil => rfl
  | cons choice choices =>
    simp only [groupChoices, List.length_cons]
    omega

end Groups

section Pieces

def fieldPiece (type : FormMarkup.FieldType) (label : FormText) (n m : Int) : FormMarkup.Piece :=
  .field label type ⟨width n, plain_width n⟩ ⟨width m, plain_width m⟩

def groupPiece (type : FormMarkup.ChoiceType) (groupLabel : FormText) (choices : List FormText)
    : FormMarkup.Piece :=
  .group type (groupChoices groupLabel choices).fst (groupChoices groupLabel choices).snd

namespace AddCall

def piece : AddCall → FormMarkup.Piece
  | .int label _ width visibleWidth | .sval label _ width visibleWidth =>
    fieldPiece ⟨'D', by decide, by decide⟩ label width visibleWidth
  | .bitset groupLabel _ choices => groupPiece ⟨'C', by decide⟩ groupLabel choices
  | .radio groupLabel _ choices => groupPiece ⟨'R', by decide⟩ groupLabel choices
  | .address label _ width visibleWidth =>
    fieldPiece ⟨'$', by decide, by decide⟩ label width visibleWidth
  | .text label _ width visibleWidth =>
    fieldPiece ⟨'q', by decide, by decide⟩ label width visibleWidth
  | .path label _ forSaving visibleWidth =>
    fieldPiece ⟨'f', by decide, by decide⟩ label (if forSaving then 1 else 0) visibleWidth

theorem apply_eq (builder : FormBuilder) (call : AddCall)
    : call.apply builder
        = { markup := builder.markup ++ call.piece.text,
            bindings := builder.bindings ++ [call.binding] } := by
  cases call with
  | bitset groupLabel value choices =>
    simp only [apply, FormBuilder.addBitset, FormBuilder.appendBinding, appendChoiceGroup_eq]
    rfl
  | radio groupLabel value choices =>
    simp only [apply, FormBuilder.addRadio, FormBuilder.appendBinding, appendChoiceGroup_eq]
    rfl
  | int label value width visibleWidth =>
    simp only [apply, FormBuilder.addInt, FormBuilder.appendBinding, appendFormField_eq]
    rfl
  | sval label value width visibleWidth =>
    simp only [apply, FormBuilder.addSval, FormBuilder.appendBinding, appendFormField_eq]
    rfl
  | address label value width visibleWidth =>
    simp only [apply, FormBuilder.addAddress, FormBuilder.appendBinding, appendFormField_eq]
    rfl
  | text label value width visibleWidth =>
    simp only [apply, FormBuilder.addText, FormBuilder.appendBinding, appendFormField_eq]
    rfl
  | path label value forSaving visibleWidth =>
    simp only [apply, FormBuilder.addPath, FormBuilder.appendBinding, appendFormField_eq]
    rfl

theorem piece_control (call : AddCall) : call.piece.control = call.control := by
  cases call with
  | bitset groupLabel value choices =>
    simp [piece, groupPiece, FormMarkup.Piece.control, control, length_groupChoices]
  | radio groupLabel value choices =>
    simp [piece, groupPiece, FormMarkup.Piece.control, control, length_groupChoices]
  | _ => rfl

theorem plain_labels_iff (call : AddCall)
    : (∀ label ∈ call.piece.labels, FormMarkup.Plain label)
        ↔ ∀ text ∈ call.texts, FormMarkup.Plain text := by
  cases call with
  | bitset groupLabel value choices => apply plain_groupChoices_iff
  | radio groupLabel value choices => apply plain_groupChoices_iff
  | _ => rfl

end AddCall

theorem FormBuilder.foldl_apply (builder : FormBuilder) (calls : List AddCall)
    : calls.foldl AddCall.apply builder
        = { markup := builder.markup ++ (calls.map AddCall.piece).flatMap FormMarkup.Piece.text,
            bindings := builder.bindings ++ calls.map AddCall.binding } := by
  induction calls generalizing builder with
  | nil => simp
  | cons call calls ih => simp [ih, AddCall.apply_eq]

end Pieces

section Nul

theorem zero_not_mem_fieldText {label : FormText} {type : Char} (n m : Int) (hlabel : '\x00' ∉ label)
    (htype : '\x00' ≠ type)
    : '\x00' ∉ FormMarkup.fieldText label type (width n) (width m) := by
  simp [FormMarkup.fieldText, hlabel, htype, zero_not_mem_width]

theorem zero_not_mem_groupText {type : Char} {choice : FormText} {choices : List FormText}
    (htype : '\x00' ≠ type) (h : ∀ text ∈ choice :: choices, '\x00' ∉ text)
    : '\x00' ∉ FormMarkup.groupText type choice choices := by
  induction choices generalizing choice with
  | nil => simp [FormMarkup.groupText, htype, h choice (by simp)]
  | cons next choices ih =>
    rw [List.forall_mem_cons] at h
    simp [FormMarkup.groupText, htype, h.left, ih h.right]

theorem zero_not_mem_groupChoices {groupLabel : FormText} {choices : List FormText}
    (h : ∀ text ∈ groupLabel :: choices, '\x00' ∉ text)
    : ∀ text ∈ (groupChoices groupLabel choices).fst :: (groupChoices groupLabel choices).snd,
        '\x00' ∉ text := by
  rw [List.forall_mem_cons] at h
  have hlead : '\x00' ∉ lead groupLabel 0 := by
    unfold lead
    split
    . simp [h.left]
    . simp
  cases choices with
  | nil => simp [groupChoices, hlead, h.left]
  | cons choice choices =>
    rw [List.forall_mem_cons] at h
    simpa [groupChoices, hlead, h.right.left] using h.right.right

theorem AddCall.zero_not_mem_text {call : AddCall} (h : ∀ text ∈ call.texts, '\x00' ∉ text)
    : '\x00' ∉ call.piece.text := by
  cases call with
  | bitset groupLabel value choices =>
    exact zero_not_mem_groupText (by decide) (zero_not_mem_groupChoices h)
  | radio groupLabel value choices =>
    exact zero_not_mem_groupText (by decide) (zero_not_mem_groupChoices h)
  | int label => exact zero_not_mem_fieldText _ _ (h label (by simp [texts])) (by decide)
  | sval label => exact zero_not_mem_fieldText _ _ (h label (by simp [texts])) (by decide)
  | address label => exact zero_not_mem_fieldText _ _ (h label (by simp [texts])) (by decide)
  | text label => exact zero_not_mem_fieldText _ _ (h label (by simp [texts])) (by decide)
  | path label => exact zero_not_mem_fieldText _ _ (h label (by simp [texts])) (by decide)

end Nul

section Passing

variable {qmaxpath : Nat} {memory : FormVariables}

theorem forall₂_of_prepareFormBindings {bindings : List FormBinding} {values : List FormValue}
    (h : prepareFormBindings qmaxpath memory bindings = .ok values)
    : List.Forall₂ (fun binding value => binding.prepare qmaxpath memory = .ok value) bindings
        values := by
  unfold prepareFormBindings at h
  induction bindings generalizing values with
  | nil =>
    cases h
    exact .nil
  | cons binding bindings ih =>
    rw [List.mapM_cons, bind_eq_ok_iff] at h
    rcases h with ⟨value, hvalue, h⟩
    rw [bind_eq_ok_iff] at h
    rcases h with ⟨rest, hrest, h⟩
    cases h
    exact .cons hvalue (ih hrest)

theorem AddCall.takes_of_prepare {call : AddCall} {value : FormValue}
    (h : call.binding.prepare qmaxpath memory = .ok value) : Takes call.control value := by
  cases call with
  | int label target width visibleWidth =>
    simp only [binding, FormBinding.prepare] at h
    split at h
    . cases h
    . cases h
      rfl
  | text label target width visibleWidth =>
    simp only [binding, FormBinding.prepare] at h
    split at h
    . cases h
    . cases h
      rfl
  | path label target forSaving visibleWidth =>
    simp only [binding, FormBinding.prepare] at h
    split at h
    . cases h
    . split at h
      . cases h
      . cases h
        rfl
  | sval label target width visibleWidth =>
    cases h
    rfl
  | address label target width visibleWidth =>
    cases h
    rfl
  | bitset groupLabel target choices =>
    cases h
    exact .inl rfl
  | radio groupLabel target choices =>
    cases h
    exact .inr rfl

theorem FormBuilder.call_eq_ok {builder : FormBuilder} {call : FormCall}
    (h : builder.call qmaxpath memory = .ok call)
    : call.markup = cString builder.markup
        ∧ prepareFormBindings qmaxpath memory builder.bindings = .ok call.args := by
  unfold FormBuilder.call at h
  split at h
  . next hnone =>
    split at h
    . cases h
    . cases h
      rw [hnone]
      exact ⟨rfl, rfl⟩
  . rw [bind_eq_ok_iff] at h
    rcases h with ⟨_, hvalid, h⟩
    rw [bind_eq_ok_iff] at h
    rcases h with ⟨args, hargs, h⟩
    cases h
    exact ⟨rfl, hargs⟩

end Passing

section Alignment

variable {title : Option FormText} {calls : List AddCall}

def NulFree (title : Option FormText) (calls : List AddCall) : Prop :=
  '\x00' ∉ title.getD [] ∧ ∀ call ∈ calls, ∀ text ∈ call.texts, '\x00' ∉ text

theorem FormBuilder.markup_ofCalls (title : Option FormText) (calls : List AddCall)
    : (FormBuilder.ofCalls title calls).markup
        = (FormBuilder.start title).markup
          ++ (calls.map AddCall.piece).flatMap FormMarkup.Piece.text := by
  rw [ofCalls, foldl_apply]

theorem FormBuilder.bindings_ofCalls (title : Option FormText) (calls : List AddCall)
    : (FormBuilder.ofCalls title calls).bindings = calls.map AddCall.binding := by
  have hstart : (FormBuilder.start title).bindings = [] := by
    cases title with
    | none => rfl
    | some title => rfl
  rw [ofCalls, foldl_apply, hstart, List.nil_append]

theorem FormBuilder.mem_start {c : Char} (hc : c ≠ '\n')
    : c ∈ (FormBuilder.start title).markup ↔ c ∈ title.getD [] := by
  cases title with
  | none => rfl
  | some title => simp [start, ofTitle, hc]

theorem NulFree.cString_markup (h : NulFree title calls)
    : cString (FormBuilder.ofCalls title calls).markup
        = (FormBuilder.ofCalls title calls).markup := by
  have hstart : '\x00' ∉ (FormBuilder.start title).markup := by
    rw [FormBuilder.mem_start (by decide)]
    exact h.left
  unfold cString
  rw [List.takeWhile_eq_self_iff]
  intro c hc
  rw [FormBuilder.markup_ofCalls, List.mem_append, List.mem_flatMap] at hc
  rw [decide_eq_true_iff]
  rintro rfl
  rcases hc with hc | ⟨piece, hpiece, hc⟩
  . apply hstart hc
  . rw [List.mem_map] at hpiece
    rcases hpiece with ⟨call, hcall, heq⟩
    rw [← heq] at hc
    apply AddCall.zero_not_mem_text (h.right call hcall) hc

theorem parse_ofCalls_iff
    : FormMarkup.parse (FormBuilder.ofCalls title calls).markup = some (calls.map AddCall.control)
        ↔ '<' ∉ title.getD [] ∧ ∀ call ∈ calls, ∀ text ∈ call.texts, FormMarkup.Plain text := by
  have hcontrols : calls.map AddCall.control
      = (calls.map AddCall.piece).map FormMarkup.Piece.control := by
    simp [AddCall.piece_control]
  rw [FormBuilder.markup_ofCalls, hcontrols, FormMarkup.parse_pieces_iff,
    FormBuilder.mem_start (by decide), List.forall_mem_map]
  simp only [AddCall.plain_labels_iff]

/--
The controls of a form are the ones that were added, each beside its own binding, exactly when no
delimiter of the markup is in a text of the caller. The title may have those that open no control.
-/
theorem form_aligned_iff (h : NulFree title calls)
    : Aligned (.ofCalls title calls) calls
        ↔ '<' ∉ title.getD [] ∧ ∀ call ∈ calls, ∀ text ∈ call.texts, FormMarkup.Plain text := by
  constructor
  . intro haligned
    rw [← parse_ofCalls_iff]
    exact haligned.controls
  . intro hplain
    refine ⟨parse_ofCalls_iff.mpr hplain, FormBuilder.bindings_ofCalls title calls, ?_⟩
    intro qmaxpath memory call hcall
    rcases FormBuilder.call_eq_ok hcall with ⟨hmarkup, hargs⟩
    have hvalues := forall₂_of_prepareFormBindings hargs
    rw [FormBuilder.bindings_ofCalls, List.forall₂_map_left_iff] at hvalues
    refine ⟨hmarkup.trans h.cString_markup, hvalues.imp ?_⟩
    intro added value hvalue
    exact ⟨AddCall.takes_of_prepare hvalue, hvalue⟩

theorem form_aligned_options
    : Aligned
        (.ofCalls (some "Options > Export".toList)
          [.int "Depth".toList 0 10 (-1), .path "Output".toList 0 true 64,
            .bitset "Include".toList 0 ["metadata".toList, "types".toList], .radio [] 1 []])
        [.int "Depth".toList 0 10 (-1), .path "Output".toList 0 true 64,
          .bitset "Include".toList 0 ["metadata".toList, "types".toList], .radio [] 1 []] :=
  (form_aligned_iff (by unfold NulFree; decide)).mpr (by decide)

def injectedField : AddCall :=
  .int "Depth:D:10:10::>\n<Width".toList 0 10 10

theorem not_aligned_injectedField
    : NulFree (some "Options".toList) [injectedField]
        ∧ ¬ Aligned (.ofCalls (some "Options".toList) [injectedField]) [injectedField] := by
  refine ⟨by unfold NulFree; decide, ?_⟩
  intro haligned
  have hcontrols := haligned.controls
  revert hcontrols
  decide

end Alignment

end Ui
end Idax
