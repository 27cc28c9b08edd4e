import Mathlib.Data.List.DropRight

/-!
# Lines and blanks

Reading a text line by line, where every line keeps the newline that ends it, searching a text, and
stripping the blanks around a string.
-/

namespace SecureChat.Library

/-! ## Lines -/

section
variable {β : Type} [DecidableEq β] {newline : β}

def lines (newline : β) : List β → List (List β)
  | [] => []
  | b :: rest =>
      if b = newline then [b] :: lines newline rest
      else match lines newline rest with
        | [] => [[b]]
        | line :: more => (b :: line) :: more

@[simp] theorem lines_newline (s : List β) : lines newline (newline :: s) = [newline] :: lines newline s := by
  rw [lines, if_pos rfl]

theorem lines_cons {b : β} (other : b ≠ newline) {s line : List β} {more : List (List β)}
    (read : lines newline s = line :: more) : lines newline (b :: s) = (b :: line) :: more := by
  rw [lines, if_neg other, read]

variable (newline) in
theorem lines_eq_cons (s t : List β) : ∃ line more, lines newline (s ++ newline :: t) = line :: more := by
  induction s with
  | nil => exact ⟨_, _, lines_newline t⟩
  | cons b s ih =>
      by_cases same : b = newline
      · subst same
        exact ⟨_, _, lines_newline _⟩
      · obtain ⟨line, more, read⟩ := ih
        exact ⟨_, _, lines_cons same read⟩

theorem lines_first {s : List β} (absent : newline ∉ s) (t : List β) :
    lines newline (s ++ newline :: t) = (s ++ [newline]) :: lines newline t := by
  induction s with
  | nil => exact lines_newline t
  | cons b s ih =>
      rw [List.mem_cons, not_or] at absent
      exact lines_cons (Ne.symm absent.1) (ih absent.2)

variable (newline) in
theorem lines_append (s t : List β) :
    lines newline (s ++ newline :: t) = lines newline (s ++ [newline]) ++ lines newline t := by
  induction s with
  | nil => simp [lines]
  | cons b s ih =>
      by_cases same : b = newline
      · subst same
        simp [ih]
      · obtain ⟨line, more, read⟩ := lines_eq_cons newline s []
        have whole := ih
        rw [read] at whole
        rw [List.cons_append, List.cons_append, lines_cons same read, lines_cons same whole]
        rfl

theorem ended_of_mem_lines (s : List β) {line : List β} (member : line ∈ lines newline (s ++ [newline])) :
    ∃ text, line = text ++ [newline] := by
  induction s generalizing line with
  | nil => exact ⟨[], by simpa [lines] using member⟩
  | cons b s ih =>
      by_cases same : b = newline
      · subst same
        rw [List.cons_append, lines_newline, List.mem_cons] at member
        rcases member with rfl | member
        · exact ⟨[], rfl⟩
        · exact ih member
      · obtain ⟨first, more, read⟩ := lines_eq_cons newline s []
        rw [List.cons_append, lines_cons same read, List.mem_cons] at member
        rcases member with rfl | member
        · obtain ⟨text, rfl⟩ := ih (show first ∈ _ by simp [read])
          exact ⟨b :: text, rfl⟩
        · exact ih (by simp [read, member])

/-- What stands between the last newline and the end of a text is the end of its last line. -/
theorem last_line (s : List β) {t : List β} (absent : newline ∉ t) :
    ∃ first, first ++ t ++ [newline] ∈ lines newline (s ++ t ++ [newline]) := by
  induction s with
  | nil => exact ⟨[], by simp [lines_first absent]⟩
  | cons b s ih =>
      obtain ⟨first, member⟩ := ih
      by_cases same : b = newline
      · subst same
        rw [List.cons_append, List.cons_append, lines_newline]
        exact ⟨first, List.mem_cons_of_mem _ member⟩
      · obtain ⟨line, more, read⟩ := lines_eq_cons newline (s ++ t) []
        rw [read, List.mem_cons] at member
        rw [List.cons_append, List.cons_append, lines_cons same read]
        rcases member with rfl | member
        · exact ⟨b :: first, by simp⟩
        · exact ⟨first, List.mem_cons_of_mem _ member⟩

/-! ## Splitting at a separator -/

omit [DecidableEq β] in
theorem mem_take_append_cons {first : List β} {b : β} (absent : b ∉ first) (rest : List β) (n : Nat) :
    b ∈ (first ++ b :: rest).take n ↔ first.length < n := by
  rw [List.take_append, List.mem_append]
  constructor
  · intro member
    rcases member with member | member
    · exact absurd (List.mem_of_mem_take member) absent
    · have some_left : n - first.length ≠ 0 := by
        intro none_left
        rw [none_left] at member
        contradiction
      omega
  · intro enough
    obtain ⟨k, left⟩ : ∃ k, n - first.length = k + 1 := ⟨n - first.length - 1, by omega⟩
    exact .inr (by simp [left])

theorem splitOn_eq_cons (sep : β) (s : List β) : ∃ more, s.splitOn sep = s.takeWhile (· ≠ sep) :: more := by
  by_cases present : sep ∈ s
  · obtain ⟨first, rest, rfl, absent⟩ := List.eq_append_cons_of_mem present
    refine ⟨rest.splitOn sep, ?_⟩
    have others : ∀ b ∈ first, decide (b ≠ sep) = true := by
      intro b member
      exact decide_eq_true fun same => absent (same ▸ member)
    rw [List.splitOn_append_cons_self_of_not_mem absent, List.takeWhile_append_of_pos others]
    simp
  · refine ⟨[], ?_⟩
    rw [List.splitOn_eq_singleton present, List.takeWhile_eq_self_iff.mpr]
    intro b member
    exact decide_eq_true fun same => present (same ▸ member)

theorem splitOn_concat (sep : β) {b : β} (other : b ≠ sep) (s : List β) :
    ∃ parts last, (s ++ [b]).splitOn sep = parts ++ [last ++ [b]] := by
  induction s with
  | nil => exact ⟨[], [], List.splitOn_eq_singleton (by simpa using other.symm)⟩
  | cons c s ih =>
      obtain ⟨parts, last, rest⟩ := ih
      rw [List.cons_append, List.splitOn_cons_eq_if_modifyHead, rest]
      split
      · exact ⟨[] :: parts, last, rfl⟩
      · cases parts with
        | nil => exact ⟨[], c :: last, rfl⟩
        | cons part parts => exact ⟨(c :: part) :: parts, last, rfl⟩

end

/-! ## Searching -/

section
variable {β : Type} [DecidableEq β] {sub s : List β}

/-- Where `sub` first stands in a text. -/
def index (sub : List β) : List β → Option Nat
  | [] => if sub = [] then some 0 else none
  | b :: rest => if sub.isPrefixOf (b :: rest) then some 0 else (index sub rest).map (· + 1)

/-- The first end of a text that starts with `sub`. -/
theorem find_tails_isPrefixOf (sub s : List β) :
    s.tails.find? (sub.isPrefixOf ·) = (index sub s).map (s.drop ·) := by
  induction s with
  | nil => cases sub <;> simp [index]
  | cons b s ih =>
      rw [List.tails, List.find?_cons, index]
      by_cases here : sub.isPrefixOf (b :: s) = true
      · simp [here]
      · rw [if_neg here, Bool.eq_false_iff.mpr here, ih, Option.map_map]
        rfl

theorem index_isSome_iff : (index sub s).isSome ↔ sub <:+: s := by
  induction s with
  | nil => cases sub <;> simp [index]
  | cons b s ih =>
      rw [index, List.infix_cons_iff, ← ih, ← List.isPrefixOf_iff_prefix]
      by_cases here : sub.isPrefixOf (b :: s) = true <;> simp [here]

end

/-! ## Blanks -/

section
variable {β : Type} {blank : β → Bool} {s pre post : List β}

def strip (blank : β → Bool) (s : List β) : List β :=
  (s.dropWhile blank).rdropWhile blank

theorem strip_concat {b : β} (isBlank : blank b = true) (s : List β) :
    strip blank (s ++ [b]) = strip blank s := by
  rw [strip, strip, List.dropWhile_append]
  split
  · next empty => simp [List.isEmpty_iff.mp empty, isBlank]
  · exact List.rdropWhile_concat_pos _ _ _ isBlank

theorem strip_cons {b : β} (isBlank : blank b = true) (s : List β) : strip blank (b :: s) = strip blank s := by
  rw [strip, strip, List.dropWhile_cons_of_pos isBlank]

theorem dropWhile_eq_self_iff_head? : s.dropWhile blank = s ↔ s.head?.any blank = false := by
  cases s with
  | nil => simp
  | cons b s => simp [List.dropWhile_eq_self_iff]

theorem rdropWhile_eq_self_iff_getLast? : s.rdropWhile blank = s ↔ s.getLast?.any blank = false := by
  rw [List.rdropWhile, List.reverse_eq_iff, dropWhile_eq_self_iff_head?, List.head?_reverse]

theorem strip_eq_self_iff : strip blank s = s ↔ s.head?.any blank = false ∧ s.getLast?.any blank = false := by
  rw [← dropWhile_eq_self_iff_head?, ← rdropWhile_eq_self_iff_getLast?]
  constructor
  · intro same
    have long : s.length ≤ (s.dropWhile blank).length := by
      have shorter := (List.rdropWhile_prefix blank (s.dropWhile blank)).length_le
      rwa [← strip, same] at shorter
    have first : s.dropWhile blank = s := (List.dropWhile_suffix _).eq_of_length_le long
    exact ⟨first, by rwa [strip, first] at same⟩
  · intro ⟨first, last⟩
    rw [strip, first, last]

theorem strip_cons_ne {b : β} (isBlank : blank b = true) (s : List β) : strip blank (b :: s) ≠ b :: s := by
  intro same
  have first := (strip_eq_self_iff.mp same).1
  rw [List.head?_cons, Option.any_some, isBlank] at first
  contradiction

variable (blank) in
theorem length_rdropWhile_append (s t : List β) :
    (t.rdropWhile blank).length ≤ ((s ++ t).rdropWhile blank).length := by
  rw [List.rdropWhile, List.rdropWhile, List.reverse_append, List.dropWhile_append]
  split
  · next empty => simp [List.isEmpty_iff.mp empty]
  · simp

theorem length_strip_lt {b : β} (mark : blank b = false) (s : List β) :
    (strip blank s).length < (strip blank (b :: s)).length := by
  have inner := length_rdropWhile_append blank (s.takeWhile blank) (s.dropWhile blank)
  rw [List.takeWhile_append_dropWhile, ← strip] at inner
  have first : (b :: s).dropWhile blank = b :: s := List.dropWhile_cons_of_neg (by simp [mark])
  have kept : (b :: s).rdropWhile blank = b :: s.rdropWhile blank := by
    rw [List.rdropWhile, List.rdropWhile, List.reverse_cons, List.dropWhile_append]
    split
    · next empty => simp [List.isEmpty_iff.mp empty, mark]
    · simp
  have whole : strip blank (b :: s) = b :: s.rdropWhile blank := by rw [strip, first, kept]
  rw [whole, List.length_cons]
  omega

theorem strip_split (blank : β → Bool) (s : List β) :
    ∃ pre post, s = pre ++ strip blank s ++ post ∧ (∀ b ∈ pre, blank b = true) ∧
      ∀ b ∈ post, blank b = true := by
  refine ⟨s.takeWhile blank, (s.dropWhile blank).rtakeWhile blank, ?_, ?_, ?_⟩
  · rw [strip, List.append_assoc, List.rdropWhile_append_rtakeWhile, List.takeWhile_append_dropWhile]
  · intro b member
    exact List.mem_takeWhile_imp member
  · intro b member
    exact List.mem_rtakeWhile_imp member

variable (blank) in
theorem mem_strip {b : β} (mark : blank b = false) : b ∈ strip blank s ↔ b ∈ s := by
  obtain ⟨pre, post, split, before, after⟩ := strip_split blank s
  constructor
  · intro member
    rw [split]
    simp [member]
  · intro member
    rw [split, List.mem_append, List.mem_append] at member
    rcases member with (member | member) | member
    · exact absurd (before b member) (by simp [mark])
    · exact member
    · exact absurd (after b member) (by simp [mark])

theorem strip_append_marks (t : List β) {marks : List β} (nonempty : marks ≠ [])
    (isMark : ∀ b ∈ marks, blank b = false) : strip blank (t ++ marks) = t.dropWhile blank ++ marks := by
  have kept : marks.dropWhile blank = marks := by
    cases marks with
    | nil => rfl
    | cons b rest => exact List.dropWhile_cons_of_neg (by simp [isMark b])
  have ends : (t ++ marks).dropWhile blank = t.dropWhile blank ++ marks := by
    rw [List.dropWhile_append, kept]
    split
    · next empty => rw [List.isEmpty_iff.mp empty, List.nil_append]
    · rfl
  obtain ⟨first, last, rfl⟩ := List.eq_nil_or_concat marks |>.resolve_left nonempty
  rw [strip, ends, List.concat_eq_append, ← List.append_assoc]
  exact List.rdropWhile_concat_neg _ _ _ (by simp [isMark last])

/-- An end without blanks is part of any other end that looks the same once blanks are gone. -/
theorem eq_append_of_strip_eq {t x marks : List β} (nonempty : marks ≠ [])
    (isMark : ∀ b ∈ marks, blank b = false) (same : strip blank (t ++ x) = strip blank (t ++ marks)) :
    ∃ pre post, x = pre ++ marks ++ post := by
  rw [strip_append_marks t nonempty isMark, strip, List.dropWhile_append] at same
  split at same
  · next empty =>
      rw [List.isEmpty_iff.mp empty, List.nil_append] at same
      obtain ⟨pre, post, split, _⟩ := strip_split blank x
      rw [strip, same] at split
      exact ⟨pre, post, split⟩
  · have whole : (t.dropWhile blank ++ x).rdropWhile blank ++ (t.dropWhile blank ++ x).rtakeWhile blank =
        t.dropWhile blank ++ x := List.rdropWhile_append_rtakeWhile
    rw [same, List.append_assoc, List.append_cancel_left_eq] at whole
    exact ⟨[], _, whole.symm⟩

end

end SecureChat.Library
