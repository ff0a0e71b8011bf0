import Mathlib.Data.Bool.AllAny
import Mathlib.Data.List.DropRight

/-!
# Fields and blanks

A text of fields with a separator between each two, and what remains of it without the blanks around
it. The separator is no blank, so that only the first and the last field change.
-/

namespace Text

open List Option

variable {α : Type} {blank : α → Bool} {s t : List α}

/-- The text without the blanks around it. -/
def strip (blank : α → Bool) (s : List α) : List α := (s.dropWhile blank).rdropWhile blank

theorem dropWhile_append_of_stop (ht : ∀ c, t.head? = some c → blank c = false) :
    (s ++ t).dropWhile blank = s.dropWhile blank ++ t := by
  induction s with
  | nil =>
    cases t with
    | nil => rfl
    | cons c t => exact dropWhile_cons_of_neg (by simp [ht c rfl])
  | cons c s ih =>
    rw [cons_append, dropWhile_cons, dropWhile_cons]
    split
    · exact ih
    · rfl

theorem rdropWhile_append_of_stop (ht : ∀ c, t.getLast? = some c → blank c = false) :
    (t ++ s).rdropWhile blank = t ++ s.rdropWhile blank := by
  have hstop : ∀ c, t.reverse.head? = some c → blank c = false := by
    intro c hc
    exact ht c (by rwa [head?_reverse] at hc)
  unfold rdropWhile
  rw [reverse_append, dropWhile_append_of_stop hstop, reverse_append,
    reverse_reverse]

theorem blank_of_head?_dropWhile {c : α} (h : (s.dropWhile blank).head? = some c) :
    blank c = false := by
  have hhead := head?_dropWhile_not blank s
  rw [h] at hhead
  exact hhead

theorem blank_of_getLast?_rdropWhile {c : α} (h : (s.rdropWhile blank).getLast? = some c) :
    blank c = false := by
  unfold rdropWhile at h
  rw [getLast?_reverse] at h
  exact blank_of_head?_dropWhile h

/-- The blanks at the end do not matter for the beginning of what is left. -/
theorem head?_strip : (strip blank s).head? = (s.dropWhile blank).head? := by
  unfold strip
  cases hs : s.dropWhile blank with
  | nil => rfl
  | cons c rest =>
    have hc : blank c = false := blank_of_head?_dropWhile (s := s) (by rw [hs]; rfl)
    have hstop : ∀ d, [c].getLast? = some d → blank d = false := by
      intro d hd
      rw [← some.inj hd]
      exact hc
    have hcons : (c :: rest).rdropWhile blank = c :: rest.rdropWhile blank :=
      rdropWhile_append_of_stop (s := rest) hstop
    rw [hcons]
    rfl

theorem strip_dropWhile : strip blank (s.dropWhile blank) = strip blank s := by
  unfold strip
  rw [dropWhile_idempotent]

/-- The order in which the blanks are taken away does not matter. -/
theorem strip_eq : strip blank s = (s.rdropWhile blank).dropWhile blank := by
  induction s with
  | nil => rfl
  | cons c rest ih =>
    unfold strip at ih ⊢
    cases hc : blank c with
    | true =>
      rw [dropWhile_cons_of_pos hc, ih]
      cases hrest : rest.rdropWhile blank with
      | nil =>
        have hall : ∀ d ∈ c :: rest, blank d := by
          intro d hd
          obtain rfl | hd := mem_cons.mp hd
          · exact hc
          · exact rdropWhile_eq_nil_iff.mp hrest d hd
        rw [rdropWhile_eq_nil_iff.mpr hall]
      | cons d tail =>
        have hlast : (c :: rest).rdropWhile blank = c :: rest.rdropWhile blank := by
          unfold rdropWhile at hrest ⊢
          have hne : rest.reverse.dropWhile blank ≠ [] := fun hnil ↦ by simp [hnil] at hrest
          rw [reverse_cons, dropWhile_append]
          simp [hne]
        rw [hlast, hrest, dropWhile_cons_of_pos hc]
    | false =>
      have hstop : ∀ d, [c].getLast? = some d → blank d = false := by
        intro d hd
        rw [← some.inj hd]
        exact hc
      have hcons : (c :: rest).rdropWhile blank = c :: rest.rdropWhile blank :=
        rdropWhile_append_of_stop (s := rest) hstop
      rw [dropWhile_cons_of_neg (by simp [hc]), hcons, dropWhile_cons_of_neg (by simp [hc])]

theorem strip_rdropWhile : strip blank (s.rdropWhile blank) = strip blank s := by
  rw [strip_eq, rdropWhile_idempotent, ← strip_eq]

theorem getLast?_strip : (strip blank s).getLast? = (s.rdropWhile blank).getLast? := by
  have hreverse : (strip blank s).reverse = strip blank s.reverse := by
    rw [strip, strip_eq, rdropWhile, rdropWhile, reverse_reverse, reverse_reverse]
  rw [← head?_reverse, hreverse, head?_strip, ← head?_reverse, rdropWhile,
    reverse_reverse]

/-- What is taken away are blanks. -/
theorem exists_eq_strip (blank : α → Bool) (s : List α) : ∃ before after,
    s = before ++ strip blank s ++ after ∧ (∀ c ∈ before, blank c) ∧
      ∀ c ∈ after, blank c := by
  refine ⟨s.takeWhile blank, (s.dropWhile blank).rtakeWhile blank, ?_, ?_, ?_⟩
  · have hrest : strip blank s ++ (s.dropWhile blank).rtakeWhile blank = s.dropWhile blank := by
      unfold strip rdropWhile rtakeWhile
      rw [← reverse_append, takeWhile_append_dropWhile, reverse_reverse]
    rw [append_assoc, hrest, takeWhile_append_dropWhile]
  · intro c hc
    exact mem_takeWhile_imp hc
  · intro c hc
    exact mem_rtakeWhile_imp hc

theorem strip_append_left {before : List α} (h : ∀ c ∈ before, blank c) :
    strip blank (before ++ s) = strip blank s := by
  rw [strip, dropWhile_append_of_pos h, strip]

theorem strip_append_right {after : List α} (h : ∀ c ∈ after, blank c) :
    strip blank (s ++ after) = strip blank s := by
  have hreverse : ∀ c ∈ after.reverse, blank c := fun c hc ↦ h c (mem_reverse.mp hc)
  rw [strip_eq, rdropWhile, reverse_append, dropWhile_append_of_pos hreverse, strip_eq,
    rdropWhile]

/-- Blanks of a larger kind may be taken away at once. -/
theorem strip_strip {wider : α → Bool} (hwider : ∀ c, blank c → wider c) :
    strip wider (strip blank s) = strip wider s := by
  obtain ⟨before, after, hs, hbefore, hafter⟩ := exists_eq_strip blank s
  calc
    strip wider (strip blank s) = strip wider (before ++ (strip blank s ++ after)) := by
      rw [strip_append_left fun c hc ↦ hwider c (hbefore c hc),
        strip_append_right fun c hc ↦ hwider c (hafter c hc)]
    _ = strip wider s := by rw [← append_assoc, ← hs]

section Fields

variable {sep : α}

theorem dropWhile_intercalate (hsep : blank sep = false) (field : List α) (fields : List (List α)) :
    ([sep].intercalate (field :: fields)).dropWhile blank =
      [sep].intercalate (field.dropWhile blank :: fields) := by
  cases fields with
  | nil => rw [intercalate_singleton, intercalate_singleton]
  | cons next fields =>
    apply dropWhile_append_of_stop
    intro c hc
    rw [← some.inj hc]
    exact hsep

theorem intercalate_concat (fields : List (List α)) (field : List α) :
    [sep].intercalate (fields ++ [field]) = fields.flatMap (· ++ [sep]) ++ field := by
  induction fields with
  | nil => exact intercalate_singleton
  | cons first fields ih =>
    rw [cons_append, intercalate_cons_of_ne_nil (by simp), ih]
    simp

theorem rdropWhile_intercalate (hsep : blank sep = false) (fields : List (List α))
    (field : List α) :
    ([sep].intercalate (fields ++ [field])).rdropWhile blank =
      [sep].intercalate (fields ++ [field.rdropWhile blank]) := by
  rw [intercalate_concat, intercalate_concat]
  apply rdropWhile_append_of_stop
  intro c hc
  obtain rfl | ⟨fields, last, rfl⟩ := eq_nil_or_concat fields
  · cases hc
  · have hlast : (fields.concat last).flatMap (· ++ [sep]) =
        (fields.flatMap (· ++ [sep]) ++ last) ++ [sep] := by simp
    rw [hlast, getLast?_concat] at hc
    rw [← some.inj hc]
    exact hsep

theorem intercalate_cons (field : List α) (fields : List (List α)) :
    [sep].intercalate (field :: fields) = field ++ fields.flatMap (sep :: ·) := by
  induction fields generalizing field with
  | nil => simp
  | cons next fields ih =>
    rw [intercalate_cons_cons, ih, append_assoc]
    rfl

theorem not_mem_of_mem_splitOn [DecidableEq α] {field : List α} (h : field ∈ s.splitOn sep) :
    sep ∉ field := by
  induction s generalizing field with
  | nil =>
    rw [mem_singleton.mp h]
    exact not_mem_nil
  | cons c s ih =>
    rw [splitOn_cons_eq_if_modifyHead] at h
    split at h
    · obtain rfl | h := mem_cons.mp h
      · exact not_mem_nil
      · exact ih h
    next hc =>
      cases hfields : s.splitOn sep with
      | nil => exact absurd hfields (splitOn_ne_nil sep s)
      | cons first fields =>
        rw [hfields] at ih h
        obtain rfl | h := mem_cons.mp h
        · intro hsep
          obtain heq | hsep := mem_cons.mp hsep
          · exact hc (beq_iff_eq.mpr heq.symm)
          · exact ih mem_cons_self hsep
        · exact ih (mem_cons_of_mem _ h)

/-- Text without the separator belongs to the first field. -/
theorem splitOn_append [DecidableEq α] {front : List α} (h : ∀ c ∈ front, c ≠ sep) :
    (front ++ s).splitOn sep = (s.splitOn sep).modifyHead (front ++ ·) := by
  induction front with
  | nil => cases hs : s.splitOn sep <;> simp [hs]
  | cons c front ih =>
    have hc : (c == sep) = false := by simpa using h c mem_cons_self
    rw [cons_append, splitOn_cons_eq_if_modifyHead, hc,
      ih fun d hd ↦ h d (mem_cons_of_mem _ hd)]
    cases s.splitOn sep <;> simp

end Fields

/-! ## Taking and splitting by a predicate -/

theorem takeWhile_append_of_mem {p : α → Bool} {c : α} (hc : c ∈ s) (hp : p c = false) :
    (s ++ t).takeWhile p = s.takeWhile p := by
  induction s with
  | nil => cases hc
  | cons d s ih =>
    rw [cons_append, takeWhile_cons, takeWhile_cons]
    obtain rfl | hc := mem_cons.mp hc
    · rw [hp]
      rfl
    · rw [ih hc]

theorem flatten_splitOnP (p : α → Bool) (s : List α) :
    (s.splitOnP p).flatten = s.filter fun c ↦ !p c := by
  induction s with
  | nil => rfl
  | cons c s ih =>
    rw [splitOnP_cons_eq_if_modifyHead, filter_cons]
    cases hc : p c with
    | true => simpa using ih
    | false =>
      cases hfields : s.splitOnP p with
      | nil => exact absurd hfields (splitOnP_ne_nil p s)
      | cons first fields =>
        rw [hfields] at ih
        simpa using ih

theorem length_splitOnP (p : α → Bool) (s : List α) : (s.splitOnP p).length = s.countP p + 1 := by
  induction s with
  | nil => rfl
  | cons c s ih =>
    rw [splitOnP_cons_eq_if_modifyHead, countP_cons]
    cases hc : p c with
    | true => simpa using ih
    | false => simpa using ih

theorem splitOnP_congr {p q : α → Bool} (h : ∀ c ∈ s, p c = q c) :
    s.splitOnP p = s.splitOnP q := by
  induction s with
  | nil => rfl
  | cons c s ih =>
    rw [splitOnP_cons_eq_if_modifyHead, splitOnP_cons_eq_if_modifyHead,
      h c mem_cons_self, ih fun d hd ↦ h d (mem_cons_of_mem _ hd)]

end Text
