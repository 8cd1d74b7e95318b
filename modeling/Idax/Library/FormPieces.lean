import Idax.Library.FormMarkup

/-!
Forms that are written piece by piece, with texts of any kind for the labels and the choices. The main
result `parse_pieces_iff` says for which texts a form is read as what it was written for.
-/

namespace FormMarkup

structure FieldType where
  char : Char
  plain : Plain [char]
  not_choice : isChoiceType char = false

structure ChoiceType where
  char : Char
  choice : isChoiceType char = true

abbrev Number := { text : Text // Plain text }

inductive Piece where
  | field (label : Text) (type : FieldType) (width visible : Number)
  | group (type : ChoiceType) (choice : Text) (choices : List Text)

def fieldText (label : Text) (type : Char) (width visible : Text) : Text :=
  ['<'] ++ label ++ [':', type, ':'] ++ width ++ [':'] ++ visible ++ [':', ':', '>'] ++ ['\n']

def groupText (type : Char) (choice : Text) : List Text → Text
  | [] => ['<'] ++ (choice ++ [':', type, '>']) ++ ['>', '\n']
  | next :: choices =>
    ['<'] ++ (choice ++ [':', type, '>']) ++ ['\n'] ++ groupText type next choices

namespace Piece

def text : Piece → Text
  | .field label type width visible => fieldText label type.char width.val visible.val
  | .group type choice choices => groupText type.char choice choices

def control : Piece → Control
  | .field _ type _ _ => .field type.char
  | .group type _ choices => .group type.char (choices.length + 1)

def labels : Piece → List Text
  | .field label _ _ _ => [label]
  | .group _ choice choices => choice :: choices

end Piece

theorem Plain.count_eq_zero {xs : Text} {c : Char} (h : Plain xs) (hc : c = ':' ∨ c = '<' ∨ c = '>')
    : xs.count c = 0 := by
  rw [List.count_eq_zero]
  intro hmem
  have hne := h c hmem
  rcases hc with heq | heq | heq
  . apply hne.left heq
  . apply hne.right.left heq
  . apply hne.right.right heq

theorem plain_append {xs ys : Text} : Plain (xs ++ ys) ↔ Plain xs ∧ Plain ys := by
  unfold Plain
  rw [List.forall_mem_append]

theorem ChoiceType.plain (type : ChoiceType) : Plain [type.char] := by
  have h := type.choice
  unfold isChoiceType at h
  rw [Bool.or_eq_true, decide_eq_true_iff, decide_eq_true_iff] at h
  rcases h with h | h
  . rw [h]
    decide
  . rw [h]
    decide

section Counting

theorem count_fieldText {c type : Char} {width visible : Text} (hc : c = '<' ∨ c = '>') (label : Text)
    (ht : Plain [type]) (hwidth : Plain width) (hvisible : Plain visible)
    : (fieldText label type width visible).count c = 1 + label.count c := by
  have htype := ht type (by simp)
  have hwidth := hwidth.count_eq_zero (.inr hc)
  have hvisible := hvisible.count_eq_zero (.inr hc)
  rcases hc with rfl | rfl
  . simp [fieldText, hwidth, hvisible, htype]
    omega
  . simp [fieldText, hwidth, hvisible, htype]
    omega

theorem count_choice {c type : Char} (hc : c = '<' ∨ c = '>') (ht : Plain [type]) (choice : Text)
    : (['<'] ++ (choice ++ [':', type, '>'])).count c = 1 + choice.count c := by
  have htype := ht type (by simp)
  rcases hc with rfl | rfl
  . simp [htype]
    omega
  . simp [htype]
    omega

theorem count_groupText {c type : Char} (hc : c = '<' ∨ c = '>') (ht : Plain [type]) (choice : Text)
    (choices : List Text)
    : (groupText type choice choices).count c
        = choices.length + 1 + ['>'].count c + (choice :: choices).flatten.count c := by
  have hline : ['\n'].count c = 0 := by
    rcases hc with rfl | rfl
    . rfl
    . rfl
  have hlast : ['>', '\n'].count c = ['>'].count c := by
    rw [show ['>', '\n'] = ['>'] ++ ['\n'] by rfl, List.count_append, hline, Nat.add_zero]
  induction choices generalizing choice with
  | nil =>
    rw [groupText, List.count_append, hlast, count_choice hc ht, List.flatten_singleton,
      List.length_nil]
    omega
  | cons next choices ih =>
    have ih := ih next
    rw [groupText, List.count_append, List.count_append, hline, count_choice hc ht]
    rw [List.flatten_cons, List.count_append, List.length_cons]
    omega

theorem Piece.count_open (piece : Piece)
    : piece.text.count '<' = piece.control.opened + piece.labels.flatten.count '<' := by
  cases piece with
  | field label type width visible =>
    rw [Piece.text, count_fieldText (.inl rfl) label type.plain width.property visible.property]
    simp [Piece.control, Piece.labels, Control.opened]
  | group type choice choices =>
    rw [Piece.text, count_groupText (.inl rfl) type.plain]
    rfl

theorem Piece.count_close (piece : Piece)
    : piece.text.count '>' = piece.control.closed + piece.labels.flatten.count '>' := by
  cases piece with
  | field label type width visible =>
    rw [Piece.text, count_fieldText (.inr rfl) label type.plain width.property visible.property]
    simp [Piece.control, Piece.labels, Control.closed]
  | group type choice choices =>
    rw [Piece.text, count_groupText (.inr rfl) type.plain]
    rfl

theorem count_pieces {c : Char} {brackets : Control → Nat}
    (h : ∀ piece : Piece, piece.text.count c = brackets piece.control + piece.labels.flatten.count c)
    (pieces : List Piece)
    : (pieces.flatMap Piece.text).count c
        = ((pieces.map Piece.control).map brackets).sum
          + (pieces.flatMap Piece.labels).flatten.count c := by
  induction pieces with
  | nil => rfl
  | cons piece pieces ih =>
    have hpiece := h piece
    simp only [List.flatMap_cons, List.count_append, List.map_cons, List.sum_cons,
      List.flatten_append]
    omega

end Counting

section Reading

variable {s s' : State} {out : List Control} {group : Option (Char × Nat)} {t : Char} {n : Nat}
  {choice : Text} {choices : List Text}

theorem run_opened_choice (ht : Plain [t]) (hchoice : isChoiceType t = true)
    (hgroup : (group = none ∧ n = 0) ∨ group = some (t, n))
    (hs : step s '<' = some (.control group 0 none, [])) (hplain : Plain choice)
    : Transducer.run step s (['<'] ++ (choice ++ [':', t, '>']))
        = some (.afterChoice t (n + 1), []) := by
  have hopen : Transducer.run step s ['<'] = some (.control group 0 none, []) := by
    simp [Transducer.run, hs]
  exact Transducer.run_append hopen (run_choice hplain ht hchoice hgroup)

theorem run_leave : Transducer.run step (.afterChoice t n) ['\n'] = some (.between t n, []) := by
  simp [Transducer.run, step]

theorem step_next_choice : step (.between t n) '<' = some (.control (some (t, n)) 0 none, []) := by
  simp [step]

theorem run_groupText (ht : Plain [t]) (hchoice : isChoiceType t = true)
    (hgroup : (group = none ∧ n = 0) ∨ group = some (t, n))
    (hs : step s '<' = some (.control group 0 none, []))
    (hplain : ∀ label ∈ choice :: choices, Plain label)
    : Transducer.run step s (groupText t choice choices)
        = some (.text, [.group t (n + 1 + choices.length)]) := by
  -- `s` is the state before the first choice of the group or before the next one
  induction choices generalizing choice s group n with
  | nil =>
    have hfirst := run_opened_choice ht hchoice hgroup hs (hplain choice (by simp))
    have hclose : Transducer.run step (.afterChoice t (n + 1)) ['>', '\n']
        = some (.text, [.group t (n + 1)]) := by
      simp [Transducer.run, step]
    exact Transducer.run_append hfirst hclose
  | cons next choices ih =>
    have hfirst := run_opened_choice ht hchoice hgroup hs (hplain choice (by simp))
    have hrest : Transducer.run step (.between t (n + 1)) (groupText t next choices)
        = some (.text, [.group t (n + 1 + 1 + choices.length)]) := by
      apply ih (.inr rfl) step_next_choice
      intro label hlabel
      apply hplain label (List.mem_cons_of_mem choice hlabel)
    have hlength : n + 1 + (choices.length + 1) = n + 1 + 1 + choices.length := by omega
    rw [List.length_cons, hlength]
    exact Transducer.run_append (Transducer.run_append hfirst run_leave) hrest

theorem Piece.run_text (piece : Piece) (h : ∀ label ∈ piece.labels, Plain label)
    : Transducer.run step .text piece.text = some (.text, [piece.control]) := by
  cases piece with
  | field label type width visible =>
    have hfield := run_field (h label (by simp [labels])) type.plain type.not_choice width.property
      visible.property
    have hline : Transducer.run step .text ['\n'] = some (.text, []) := by
      simp [Transducer.run, step]
    exact Transducer.run_append hfield hline
  | group type choice choices =>
    have hopen : step .text '<' = some (.control none 0 none, []) := rfl
    have hgroup := run_groupText type.plain type.choice (.inl ⟨rfl, rfl⟩) hopen h
    rw [Nat.zero_add, Nat.add_comm] at hgroup
    exact hgroup

end Reading

section Colons

variable {s s' : State} {out : List Control} {group : Option (Char × Nat)} {t : Char} {n : Nat}

theorem colon_not_mem_of_run_choice {choice : Text} (ht : Plain [t]) (hopen : '<' ∉ choice)
    (hclose : '>' ∉ choice)
    (h : Transducer.run step (.control group 0 none) (choice ++ [':', t, '>']) = some (s', out))
    : ':' ∉ choice ∨ (group = none ∧ ∃ t', out = [.field t']) := by
  have ht := ht t (by simp)
  have hopen : '<' ∉ choice ++ [':', t] := by simp [hopen, ht.right.left.symm]
  have hclose : '>' ∉ choice ++ [':', t] := by simp [hclose, ht.right.right.symm]
  rw [show choice ++ [':', t, '>'] = (choice ++ [':', t]) ++ ['>'] by simp] at h
  -- with a colon in its label, what is closed has to be a field, and these are in no group
  rcases run_closed_control hopen hclose h with ⟨_, hnone, hfield⟩ | ⟨hcount, _⟩
  . exact .inr ⟨hnone, hfield⟩
  . left
    rw [← List.count_eq_zero]
    simpa [ht.left] using hcount

theorem run_opening {xs : Text} (hs : step s '<' = some (.control group 0 none, []))
    (h : Transducer.run step s (['<'] ++ xs) = some (s', out))
    : Transducer.run step (.control group 0 none) xs = some (s', out) := by
  rcases Transducer.run_cons_eq_some h with ⟨u, first, rest, hstep, hrest, hout⟩
  rw [hs] at hstep
  cases hstep
  rw [hout]
  exact hrest

theorem colon_not_mem_of_run_groupText {choice : Text} {choices : List Text} (ht : Plain [t])
    (hchoice : isChoiceType t = true) (hgroup : (group = none ∧ n = 0) ∨ group = some (t, n))
    (hs : step s '<' = some (.control group 0 none, [])) (hopen : '<' ∉ (choice :: choices).flatten)
    (hclose : '>' ∉ (choice :: choices).flatten)
    (h : Transducer.run step s (groupText t choice choices) = some (s', out))
    : (∀ label ∈ choice :: choices, ':' ∉ label)
      ∨ (group = none ∧ ∃ t' more, out = .field t' :: more) := by
  simp only [List.flatten_cons, List.mem_append, not_or] at hopen hclose
  induction choices generalizing choice s group n out with
  | nil =>
    rcases Transducer.run_append_eq_some h with ⟨u, first, rest, hfirst, hrest, hout⟩
    have hfirst := run_opening hs hfirst
    rcases colon_not_mem_of_run_choice ht hopen.left hclose.left hfirst with hcolon | hfield
    . left
      intro label hlabel
      rw [List.mem_singleton] at hlabel
      rw [hlabel]
      exact hcolon
    . rcases hfield with ⟨hnone, t', hfield⟩
      rw [hout, hfield]
      exact .inr ⟨hnone, t', rest, rfl⟩
  | cons next choices ih =>
    rcases Transducer.run_append_eq_some h with ⟨v, front, rest, hfront, hrest, hout⟩
    rcases Transducer.run_append_eq_some hfront with ⟨u, first, middle, hline, hleave, hfront⟩
    have hfirst := run_opening hs hline
    rcases colon_not_mem_of_run_choice ht hopen.left hclose.left hfirst with hcolon | hfield
    . left
      have hplain : Plain choice := plain_iff.mpr ⟨hcolon, hopen.left, hclose.left⟩
      rw [run_opened_choice ht hchoice hgroup hs hplain] at hline
      cases hline
      rw [run_leave] at hleave
      cases hleave
      simp only [List.flatten_cons, List.mem_append, not_or] at hopen hclose
      rcases ih (.inr rfl) step_next_choice hrest hopen.right hclose.right with hmore | hfield
      . rw [List.forall_mem_cons]
        exact ⟨hcolon, hmore⟩
      . simp at hfield
    . rcases hfield with ⟨hnone, t', hfield⟩
      rw [hout, hfront, hfield]
      exact .inr ⟨hnone, t', middle ++ rest, rfl⟩

theorem colon_not_mem_of_run_fieldText {label width visible : Text} (ht : Plain [t])
    (hwidth : Plain width) (hvisible : Plain visible) (hopen : '<' ∉ label) (hclose : '>' ∉ label)
    (h : Transducer.run step .text (fieldText label t width visible) = some (s', out))
    : ':' ∉ label := by
  have htype := ht t (by simp)
  rw [plain_iff] at hwidth hvisible
  generalize hinner : label ++ ([':', t, ':'] ++ width ++ [':'] ++ visible ++ [':', ':']) = inner
  have htext : fieldText label t width visible = ['<'] ++ (inner ++ ['>']) ++ ['\n'] := by
    simp [fieldText, ← hinner]
  have hcount : inner.count ':' = label.count ':' + 5 := by
    simp [← hinner, htype.left, List.count_eq_zero.mpr hwidth.left,
      List.count_eq_zero.mpr hvisible.left]
  have hopen : '<' ∉ inner := by
    simp [← hinner, hopen, htype.right.left.symm, hwidth, hvisible]
  have hclose : '>' ∉ inner := by
    simp [← hinner, hclose, htype.right.right.symm, hwidth, hvisible]
  rw [htext] at h
  rcases Transducer.run_append_eq_some h with ⟨u, first, rest, hfirst, hrest, hout⟩
  rw [← List.count_eq_zero]
  rcases run_closed_control hopen hclose (run_opening rfl hfirst) with ⟨hfive, _⟩ | ⟨hone, _⟩
  . omega
  . omega

theorem Piece.colon_not_mem_labels {piece : Piece} {xs : Text} {controls : List Control}
    (hopen : '<' ∉ piece.labels.flatten) (hclose : '>' ∉ piece.labels.flatten)
    (h : Transducer.run step .text (piece.text ++ xs) = some (s', piece.control :: controls))
    : ∀ label ∈ piece.labels, ':' ∉ label := by
  rcases Transducer.run_append_eq_some h with ⟨u, first, rest, hfirst, hrest, hout⟩
  cases piece with
  | field label type width visible =>
    simp only [labels, List.flatten_singleton] at hopen hclose
    have hcolon := colon_not_mem_of_run_fieldText type.plain width.property visible.property hopen
      hclose hfirst
    simpa [labels] using hcolon
  | group type choice choices =>
    have hstart : step .text '<' = some (.control none 0 none, []) := rfl
    rcases colon_not_mem_of_run_groupText type.plain type.choice (.inl ⟨rfl, rfl⟩) hstart hopen
      hclose hfirst with hcolon | ⟨_, t', more, hfield⟩
    . exact hcolon
    . rw [hfield] at hout
      cases hout

end Colons

section Forms

variable {s' : State} {title : Text} {piece : Piece} {pieces : List Piece} {controls : List Control}

theorem parse_eq_some_iff {markup : Text}
    : parse markup = some controls
        ↔ ∃ s', Transducer.run step .title markup = some (s', controls)
          ∧ (s' = .title ∨ s' = .text) := by
  unfold parse
  split
  . next out hrun =>
    simp [hrun]
  . next out hrun =>
    simp [hrun]
  . next htitle htext =>
    constructor
    . intro h
      cases h
    . rintro ⟨s', hrun, heq | heq⟩
      . rw [heq] at hrun
        exact absurd hrun (htitle controls)
      . rw [heq] at hrun
        exact absurd hrun (htext controls)

theorem run_title (h : '<' ∉ title)
    : Transducer.run step .title title = some (.title, []) := by
  induction title with
  | nil => rfl
  | cons c title ih =>
    rw [List.mem_cons, not_or] at h
    have hstep : step .title c = some (.title, []) := by
      simp [step, Ne.symm h.left]
    apply Transducer.run_cons hstep (ih h.right)

theorem Piece.text_eq_cons (piece : Piece) : ∃ tail, piece.text = '<' :: tail := by
  cases piece with
  | field label type width visible => exact ⟨_, rfl⟩
  | group type choice choices =>
    cases choices with
    | nil => exact ⟨_, rfl⟩
    | cons next choices => exact ⟨_, rfl⟩

theorem run_title_piece (xs : Text)
    : Transducer.run step .title (piece.text ++ xs)
        = Transducer.run step .text (piece.text ++ xs) := by
  rcases piece.text_eq_cons with ⟨tail, htail⟩
  rw [htail]
  rfl

theorem plain_of_run_pieces (hopen : '<' ∉ (pieces.flatMap Piece.labels).flatten)
    (hclose : '>' ∉ (pieces.flatMap Piece.labels).flatten)
    (h : Transducer.run step .text (pieces.flatMap Piece.text)
      = some (s', pieces.map Piece.control))
    : ∀ piece ∈ pieces, ∀ label ∈ piece.labels, Plain label := by
  induction pieces with
  | nil => simp
  | cons piece pieces ih =>
    simp only [List.flatMap_cons, List.flatten_append, List.mem_append, not_or] at hopen hclose
    have hcolon := Piece.colon_not_mem_labels hopen.left hclose.left h
    have hplain : ∀ label ∈ piece.labels, Plain label := by
      intro label hlabel
      rw [plain_iff]
      refine ⟨hcolon label hlabel, ?_, ?_⟩
      . intro hmem
        exact hopen.left (List.mem_flatten_of_mem hlabel hmem)
      . intro hmem
        exact hclose.left (List.mem_flatten_of_mem hlabel hmem)
    rcases Transducer.run_append_eq_some h with ⟨u, first, rest, hfirst, hrest, hout⟩
    rw [piece.run_text hplain] at hfirst
    cases hfirst
    cases hout
    rw [List.forall_mem_cons]
    exact ⟨hplain, ih hopen.right hclose.right hrest⟩

theorem parse_pieces (htitle : '<' ∉ title)
    (hplain : ∀ piece ∈ pieces, ∀ label ∈ piece.labels, Plain label)
    : parse (title ++ pieces.flatMap Piece.text) = some (pieces.map Piece.control) := by
  have hpieces : Transducer.run step .text (pieces.flatMap Piece.text)
      = some (.text, pieces.flatMap fun piece => [piece.control]) := by
    apply Transducer.run_flatMap
    intro piece hpiece
    apply piece.run_text (hplain piece hpiece)
  rw [← List.map_eq_flatMap] at hpieces
  rw [parse_eq_some_iff]
  cases pieces with
  | nil => exact ⟨.title, Transducer.run_append (run_title htitle) rfl, .inl rfl⟩
  | cons piece pieces =>
    refine ⟨.text, Transducer.run_append (run_title htitle) ?_, .inr rfl⟩
    rw [List.flatMap_cons, run_title_piece, ← List.flatMap_cons, hpieces, List.map_cons]

theorem plain_of_parse_pieces
    (h : parse (title ++ pieces.flatMap Piece.text) = some (pieces.map Piece.control))
    : '<' ∉ title ∧ ∀ piece ∈ pieces, ∀ label ∈ piece.labels, Plain label := by
  rw [parse_eq_some_iff] at h
  rcases h with ⟨s', hrun, hend⟩
  have hends : s'.opened = 0 ∧ s'.closed = 0 := by
    rcases hend with heq | heq
    . rw [heq]
      exact ⟨rfl, rfl⟩
    . rw [heq]
      exact ⟨rfl, rfl⟩
  -- the controls need all the brackets that were written, so there is none in a label
  have hcount := run_opened hrun
  rw [List.count_append, count_pieces Piece.count_open, hends.left] at hcount
  simp only [State.opened] at hcount
  have htitle : '<' ∉ title := by
    rw [← List.count_eq_zero]
    omega
  have hopen : '<' ∉ (pieces.flatMap Piece.labels).flatten := by
    rw [← List.count_eq_zero]
    omega
  refine ⟨htitle, ?_⟩
  cases pieces with
  | nil => simp
  | cons piece pieces =>
    rcases Transducer.run_append_eq_some hrun with ⟨u, first, rest, hfirst, hrest, hout⟩
    rw [run_title htitle] at hfirst
    cases hfirst
    rw [List.flatMap_cons, run_title_piece, ← List.flatMap_cons, ← List.nil_append rest, ← hout]
      at hrest
    have hcount := run_closed (by simp) hrest
    rw [count_pieces Piece.count_close, hends.right] at hcount
    simp only [State.closed] at hcount
    have hclose : '>' ∉ ((piece :: pieces).flatMap Piece.labels).flatten := by
      rw [← List.count_eq_zero]
      omega
    apply plain_of_run_pieces hopen hclose hrest

/--
A form is read as what it was written for exactly when no delimiter is in a label and the title opens
no control.
-/
theorem parse_pieces_iff
    : parse (title ++ pieces.flatMap Piece.text) = some (pieces.map Piece.control)
        ↔ '<' ∉ title ∧ ∀ piece ∈ pieces, ∀ label ∈ piece.labels, Plain label := by
  constructor
  . apply plain_of_parse_pieces
  . rintro ⟨htitle, hplain⟩
    apply parse_pieces htitle hplain

end Forms

end FormMarkup
