import Mathlib.Data.List.Basic
import Mathlib.Data.List.Induction
import Mathlib.Data.List.ModifyLast

/-!
# Folded lines

A text may be folded inside a line: an end of line and one blank are put between two of its
characters. `unfold` joins the lines of a text again, and the lines it gives do not depend on how
the text was folded.
-/
namespace Library.Unfolding

/-- A blank marks the line that continues another. -/
def IsBlank (c : Char) : Prop := c = ' ' ∨ c = '\t'

instance : DecidablePred IsBlank := fun c => inferInstanceAs (Decidable (c = ' ' ∨ c = '\t'))

/-- What stands in front of the first of some lines. -/
def glue (text : List Char) : List (List Char) → List (List Char)
  | [] => if text = [] then [] else [text]
  | line :: more => (text ++ line) :: more

/-- A line ends at a line feed, with a carriage return before it or without, and at the end. -/
def lines : List Char → List (List Char)
  | [] => []
  | c :: rest =>
    if c = '\n' then [] :: lines rest
    else if c = '\r' ∧ rest.head? = some '\n' then lines rest
    else glue [c] (lines rest)

def join (joined : List (List Char)) : List Char → List (List Char)
  | [] => joined ++ [[]]
  | c :: rest =>
    if IsBlank c ∧ joined ≠ [] then joined.modifyLast (· ++ rest) else joined ++ [c :: rest]

/-- The lines of a text, those that continue another joined to it. -/
def unfold (text : List Char) : List (List Char) := (lines text).foldl join []

/-! ## Lines of a text in parts -/

theorem glue_glue (front text : List Char) (more : List (List Char)) :
    glue front (glue text more) = glue (front ++ text) more := by
  cases more with
  | nil =>
    cases text with
    | nil => simp [glue]
    | cons c text => simp [glue]
  | cons line more => simp only [glue, List.append_assoc]

theorem glue_nil (more : List (List Char)) : glue [] more = more := by
  cases more with
  | nil => rfl
  | cons line more => rfl

theorem lines_ne_nil {text : List Char} (h : text ≠ []) : lines text ≠ [] := by
  induction text with
  | nil => exact absurd rfl h
  | cons c rest ih =>
    rw [lines]
    split_ifs with hfeed hreturn
    · simp
    · apply ih
      rintro rfl
      simp at hreturn
    · cases lines rest with
      | nil => simp [glue]
      | cons line more => simp [glue]

/-- Text without a line feed stands in front of the line that follows. -/
theorem lines_append {text : List Char} (after : List Char) (htext : '\n' ∉ text)
    (hend : ¬(text.getLast? = some '\r' ∧ after.head? = some '\n')) :
    lines (text ++ after) = glue text (lines after) := by
  induction text with
  | nil => rw [List.nil_append, glue_nil]
  | cons c rest ih =>
    have hfeed : c ≠ '\n' := fun h => htext (h ▸ List.mem_cons_self)
    have hrest : '\n' ∉ rest := fun h => htext (List.mem_cons_of_mem c h)
    have hreturn : ¬(c = '\r' ∧ (rest ++ after).head? = some '\n') := by
      rintro ⟨rfl, hhead⟩
      cases rest with
      | nil => exact hend ⟨rfl, hhead⟩
      | cons d rest =>
        simp only [List.cons_append, List.head?_cons, Option.some.injEq] at hhead
        exact hrest (hhead ▸ List.mem_cons_self)
    have hmore : ¬(rest.getLast? = some '\r' ∧ after.head? = some '\n') := by
      rintro ⟨hlast, hhead⟩
      apply hend
      refine ⟨?_, hhead⟩
      rw [List.getLast?_cons, hlast]
      rfl
    rw [List.cons_append, lines, if_neg hfeed, if_neg hreturn, ih hrest hmore, glue_glue]
    rfl

/-- Lines that have ended, and those that follow. -/
theorem lines_ended {text : List Char} (after : List Char) (htext : text.getLast? = some '\n') :
    lines (text ++ after) = lines text ++ lines after := by
  induction text with
  | nil => exact nomatch htext
  | cons c rest ih =>
    rw [List.cons_append, lines, lines]
    cases rest with
    | nil =>
      obtain rfl : c = '\n' := by simpa using htext
      rfl
    | cons d rest =>
      rw [ih (by simpa using htext)]
      have hne := lines_ne_nil (List.cons_ne_nil d rest)
      by_cases hfeed : c = '\n'
      · rw [if_pos hfeed, if_pos hfeed]
        rfl
      · rw [if_neg hfeed, if_neg hfeed]
        by_cases hreturn : c = '\r' ∧ (d :: rest).head? = some '\n'
        · have hmore : c = '\r' ∧ (d :: rest ++ after).head? = some '\n' := hreturn
          rw [if_pos hmore, if_pos hreturn]
        · have hmore : ¬(c = '\r' ∧ (d :: rest ++ after).head? = some '\n') := hreturn
          rw [if_neg hmore, if_neg hreturn]
          cases hlines : lines (d :: rest) with
          | nil => exact absurd hlines hne
          | cons line more => rfl

/-- A text is the lines that have ended and a part of one that has not. -/
theorem exists_ended (text : List Char) : ∃ ended part, text = ended ++ part ∧ '\n' ∉ part ∧
    (ended = [] ∨ ended.getLast? = some '\n') := by
  induction text using List.reverseRecOn with
  | nil => exact ⟨[], [], rfl, by simp, Or.inl rfl⟩
  | append_singleton text c ih =>
    by_cases hfeed : c = '\n'
    · exact ⟨text ++ [c], [], by simp, by simp, Or.inr (by simp [hfeed])⟩
    · obtain ⟨ended, part, rfl, hpart, hended⟩ := ih
      refine ⟨ended, part ++ [c], by simp, ?_, hended⟩
      simp only [List.mem_append, List.mem_singleton, not_or]
      exact ⟨hpart, fun h => hfeed h.symm⟩

/-! ## Folding -/

def fold (before after : List Char) (blank : Char) : List Char :=
  before ++ '\r' :: '\n' :: blank :: after

/-- A place inside a line: not within its end, not before the blank that continues another line,
and not behind the last line. -/
structure Boundary (before after : List Char) : Prop where
  ending : ¬(before.getLast? = some '\r' ∧ after.head? = some '\n')
  blank : before.getLast? = some '\n' → ∀ c, after.head? = some c → ¬IsBlank c
  inside : after = [] → before ≠ [] ∧ before.getLast? ≠ some '\n'

/-- A text and one that is it with folds. -/
inductive Folded (text : List Char) : List Char → Prop
  | refl : Folded text text
  | fold {before after : List Char} {blank : Char} (folded : Folded text (before ++ after))
      (boundary : Boundary before after) (isBlank : IsBlank blank) :
      Folded text (fold before after blank)

theorem join_blank {joined : List (List Char)} {last line : List Char} {blank : Char}
    (hblank : IsBlank blank) : join (joined ++ [last]) (blank :: line) =
      joined ++ [last ++ line] := by
  rw [join, if_pos ⟨hblank, by simp⟩, List.modifyLast_concat]

theorem join_append (joined : List (List Char)) (part line : List Char) {blank : Char}
    (hblank : IsBlank blank)
    (hpart : part = [] → joined = [] ∨ ∀ c, line.head? = some c → ¬IsBlank c) :
    join (join joined part) (blank :: line) = join joined (part ++ line) := by
  cases part with
  | nil =>
    have hjoin : join joined line = joined ++ [line] := by
      cases line with
      | nil => rfl
      | cons c rest =>
        rw [join, if_neg]
        rintro ⟨hc, hjoined⟩
        rcases hpart rfl with rfl | hhead
        · exact hjoined rfl
        · exact hhead c rfl hc
    rw [List.nil_append, hjoin, join, join_blank hblank, List.nil_append]
  | cons c rest =>
    rw [List.cons_append]
    by_cases h : IsBlank c ∧ joined ≠ []
    · have hpartly : join joined (c :: rest) = joined.modifyLast (· ++ rest) := if_pos h
      have hwhole : join joined (c :: (rest ++ line)) = joined.modifyLast (· ++ (rest ++ line)) :=
        if_pos h
      obtain ⟨front, last, rfl⟩ := (List.eq_nil_or_concat joined).resolve_left h.2
      rw [hpartly, hwhole, List.concat_eq_append, List.modifyLast_concat, List.modifyLast_concat,
        join_blank hblank, List.append_assoc]
    · have hpartly : join joined (c :: rest) = joined ++ [c :: rest] := if_neg h
      have hwhole : join joined (c :: (rest ++ line)) = joined ++ [c :: (rest ++ line)] := if_neg h
      rw [hpartly, hwhole, join_blank hblank, List.cons_append]

/-- The lines of a text whose ended lines are joined already. -/
theorem unfold_ended {ended : List Char} (rest : List Char)
    (h : ended = [] ∨ ended.getLast? = some '\n') :
    unfold (ended ++ rest) = (lines rest).foldl join (unfold ended) := by
  rcases h with rfl | h
  · rfl
  · rw [unfold, lines_ended rest h, List.foldl_append, unfold]

theorem head_lines {text line : List Char} {more : List (List Char)} {c : Char}
    (h : lines text = line :: more) (hc : line.head? = some c) : text.head? = some c := by
  cases text with
  | nil => exact nomatch h
  | cons d rest =>
    rw [lines] at h
    split_ifs at h with hfeed hreturn
    · cases h
      exact nomatch hc
    · obtain ⟨rest', rfl⟩ : ∃ rest', rest = '\n' :: rest' := by
        cases rest with
        | nil => exact nomatch hreturn.2
        | cons e rest' => exact ⟨rest', by simpa using hreturn.2⟩
      rw [lines, if_pos rfl] at h
      cases h
      exact nomatch hc
    · cases hrest : lines rest with
      | nil =>
        rw [hrest] at h
        cases h
        exact hc
      | cons other others =>
        rw [hrest] at h
        cases h
        exact hc

theorem lines_fold {part after : List Char} {blank : Char} (hblank : IsBlank blank)
    (hpart : '\n' ∉ part) : lines (fold part after blank) = part :: glue [blank] (lines after) := by
  have hne : blank ≠ '\n' ∧ blank ≠ '\r' := by
    rcases hblank with rfl | rfl
    · decide
    · decide
  have hblanked : lines ([blank] ++ after) = glue [blank] (lines after) := by
    apply lines_append after
    · simpa using hne.1.symm
    · simp [hne.2]
  have hended : lines ('\r' :: '\n' :: blank :: after) = [] :: glue [blank] (lines after) := by
    rw [lines, if_neg (by decide), if_pos ⟨rfl, rfl⟩, lines, if_pos rfl, ← hblanked]
    rfl
  rw [fold, lines_append _ hpart (by simp), hended, glue, List.append_nil]

/-- A fold between a part of a line and what follows it, behind lines that have been joined. -/
theorem foldl_join_fold {joined : List (List Char)} {part after : List Char} {blank : Char}
    (hblank : IsBlank blank) (hpart : '\n' ∉ part)
    (hend : ¬(part.getLast? = some '\r' ∧ after.head? = some '\n'))
    (hstart : part = [] → joined = [] ∨ ∀ c, after.head? = some c → ¬IsBlank c)
    (hinside : after = [] → part ≠ []) :
    (lines (fold part after blank)).foldl join joined =
      (lines (part ++ after)).foldl join joined := by
  rw [lines_fold hblank hpart, lines_append after hpart hend, List.foldl_cons]
  cases hafter : lines after with
  | nil =>
    have hnil : after = [] := by
      by_contra hne
      exact lines_ne_nil hne hafter
    have hjoin := join_append joined part [] hblank
      fun hempty => absurd hempty (hinside hnil)
    rw [List.append_nil] at hjoin
    simp only [glue, if_neg (hinside hnil), List.foldl_cons, List.foldl_nil]
    exact hjoin
  | cons line more =>
    simp only [glue, List.foldl_cons, List.singleton_append]
    rw [join_append joined part line hblank]
    intro hempty
    rcases hstart hempty with hjoined | hhead
    · exact Or.inl hjoined
    · exact Or.inr fun c hc => hhead c (head_lines hafter hc)

theorem unfold_fold {before after : List Char} {blank : Char} (hblank : IsBlank blank)
    (h : Boundary before after) : unfold (fold before after blank) = unfold (before ++ after) := by
  obtain ⟨ended, part, rfl, hpart, hended⟩ := exists_ended before
  have hfold : fold (ended ++ part) after blank = ended ++ fold part after blank := by
    rw [fold, fold, List.append_assoc]
  rw [hfold, List.append_assoc, unfold_ended _ hended, unfold_ended _ hended]
  apply foldl_join_fold hblank hpart
  · rintro ⟨hlast, hhead⟩
    apply h.ending
    refine ⟨?_, hhead⟩
    rw [List.getLast?_append_of_ne_nil, hlast]
    rintro rfl
    exact nomatch hlast
  · rintro rfl
    rw [List.append_nil] at h
    rcases hended with rfl | hlast
    · exact Or.inl rfl
    · exact Or.inr (h.blank hlast)
  · rintro hnil rfl
    rw [List.append_nil] at h
    rcases hended with rfl | hlast
    · exact (h.inside hnil).1 rfl
    · exact (h.inside hnil).2 hlast

theorem Folded.unfold_eq {text folded : List Char} (h : Folded text folded) :
    unfold folded = unfold text := by
  induction h with
  | refl => rfl
  | fold _ hboundary hblank ih => rw [unfold_fold hblank hboundary, ih]

end Library.Unfolding
