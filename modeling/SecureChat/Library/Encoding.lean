import Mathlib.Data.List.Induction
import Mathlib.Data.List.Infix

/-!
# Character encodings

An encoding is a prefix code on bytes in which every ASCII byte is a character and part of no other
one. A string is read from left to right: where it goes on with a character the character is the
next piece, and elsewhere a single byte is, which makes the string broken. A text can be taken
apart at an ASCII byte without looking at its characters.
-/

namespace SecureChat.Library

structure Encoding where
  isChar : List UInt8 → Bool
  longest : Nat
  ascii : ∀ b : UInt8, b < 128 → isChar [b]
  alone : ∀ c, isChar c → ∀ b ∈ c, b < 128 → c = [b]
  prefix_free : ∀ c d, isChar c → isChar d → c <+: d → c = d
  le_longest : ∀ c, isChar c → c.length ≤ longest

namespace Encoding
variable (enc : Encoding)

def width (s : List UInt8) : Nat :=
  ((List.range' 1 enc.longest).find? fun k => k ≤ s.length && enc.isChar (s.take k)).getD 1

def scan : Nat → List UInt8 → List (List UInt8)
  | n + 1, a :: s => (a :: s).take (enc.width (a :: s)) :: scan n ((a :: s).drop (enc.width (a :: s)))
  | _, _ => []

def pieces (s : List UInt8) : List (List UInt8) := enc.scan s.length s

def length (s : List UInt8) : Nat := (enc.pieces s).length

def valid (s : List UInt8) : Bool := (enc.pieces s).all enc.isChar

def slice (s : List UInt8) (n : Nat) : List UInt8 := ((enc.pieces s).take n).flatten

/-! ## Reading from left to right -/

def StartsChar (s : List UInt8) : Prop := ∃ c, enc.isChar c = true ∧ c <+: s

variable {enc}

theorem length_pos_of_isChar {c : List UInt8} (isChar : enc.isChar c = true) : 0 < c.length := by
  rcases c with _ | ⟨b, c⟩
  · have same := enc.prefix_free [] [0] isChar (enc.ascii 0 (by decide)) (List.nil_prefix)
    contradiction
  · simp

theorem width_append {c : List UInt8} (isChar : enc.isChar c = true) (s : List UInt8) :
    enc.width (c ++ s) = c.length := by
  unfold width
  cases found : (List.range' 1 enc.longest).find? fun k =>
      k ≤ (c ++ s).length && enc.isChar ((c ++ s).take k) with
  | none =>
      have absent := List.find?_eq_none.mp found c.length (by
        rw [List.mem_range'_1]
        have := length_pos_of_isChar isChar
        have := enc.le_longest c isChar
        omega)
      simp [isChar] at absent
  | some k =>
      have holds := List.find?_some found
      simp only [Bool.and_eq_true, decide_eq_true_eq] at holds
      have same : (c ++ s).take k = c := by
        have taken := List.take_prefix k (c ++ s)
        rcases List.prefix_or_prefix_of_prefix taken (List.prefix_append c s) with shorter | longer
        · exact enc.prefix_free _ _ holds.2 isChar shorter
        · exact (enc.prefix_free _ _ isChar holds.2 longer).symm
      have lengths := congrArg List.length same
      rw [List.length_take] at lengths
      simp only [Option.getD_some]
      omega

theorem width_broken {s : List UInt8} (broken : ¬ enc.StartsChar s) : enc.width s = 1 := by
  unfold width
  cases found : (List.range' 1 enc.longest).find? fun k => k ≤ s.length && enc.isChar (s.take k) with
  | none => rfl
  | some k =>
      have holds := List.find?_some found
      simp only [Bool.and_eq_true, decide_eq_true_eq] at holds
      exact absurd ⟨_, holds.2, List.take_prefix k s⟩ broken

variable (enc) in
theorem width_pos (s : List UInt8) : 0 < enc.width s := by
  by_cases starts : enc.StartsChar s
  · obtain ⟨c, isChar, rest, rfl⟩ := starts
    rw [width_append isChar]
    exact length_pos_of_isChar isChar
  · rw [width_broken starts]
    exact Nat.one_pos

theorem scan_of_le {n m : Nat} {s : List UInt8} (enough : s.length ≤ n) (more : n ≤ m) :
    enc.scan m s = enc.scan n s := by
  induction n generalizing m s with
  | zero =>
      rw [List.length_eq_zero_iff.mp (Nat.le_zero.mp enough)]
      cases m <;> rfl
  | succ n ih =>
      obtain ⟨m, rfl⟩ : ∃ k, m = k + 1 := ⟨m - 1, by omega⟩
      cases s with
      | nil => rfl
      | cons a s =>
          have pos := enc.width_pos (a :: s)
          rw [scan, scan, ih _ (by omega)]
          simp at enough ⊢
          omega

theorem pieces_cons (a : UInt8) (s : List UInt8) : enc.pieces (a :: s) =
    (a :: s).take (enc.width (a :: s)) :: enc.pieces ((a :: s).drop (enc.width (a :: s))) := by
  have pos := enc.width_pos (a :: s)
  rw [pieces, List.length_cons, scan, pieces, scan_of_le le_rfl]
  simp
  omega

@[simp] theorem pieces_nil : enc.pieces [] = [] := rfl

theorem pieces_append {c : List UInt8} (isChar : enc.isChar c = true) (s : List UInt8) :
    enc.pieces (c ++ s) = c :: enc.pieces s := by
  have pos := length_pos_of_isChar isChar
  rcases c with _ | ⟨a, c⟩
  · contradiction
  · rw [List.cons_append, pieces_cons, ← List.cons_append, width_append isChar, List.take_left, List.drop_left]

theorem pieces_broken {a : UInt8} {s : List UInt8} (broken : ¬ enc.StartsChar (a :: s)) :
    enc.pieces (a :: s) = [a] :: enc.pieces s := by
  rw [pieces_cons, width_broken broken]
  rfl

theorem rule {motive : List UInt8 → Prop} (nil : motive [])
    (char : ∀ c s, enc.isChar c = true → motive s → motive (c ++ s))
    (broken : ∀ a s, ¬ enc.StartsChar (a :: s) → motive s → motive (a :: s)) (s : List UInt8) : motive s := by
  induction size : s.length using Nat.strong_induction_on generalizing s with
  | h n ih =>
      rcases s with _ | ⟨a, s⟩
      · exact nil
      by_cases starts : enc.StartsChar (a :: s)
      · obtain ⟨c, isChar, rest, same⟩ := starts
        have pos := length_pos_of_isChar isChar
        have lengths := congrArg List.length same
        rw [List.length_append] at lengths
        rw [← same]
        exact char c rest isChar (ih rest.length (by omega) rest rfl)
      · exact broken a s starts (ih s.length (by simp at size; omega) s rfl)

/-! ## Taking a text apart -/

variable (enc) in
theorem flatten_pieces (s : List UInt8) : (enc.pieces s).flatten = s := by
  induction s using enc.rule with
  | nil => rfl
  | char c s isChar ih => rw [pieces_append isChar, List.flatten_cons, ih]
  | broken a s broken ih => rw [pieces_broken broken, List.flatten_cons, ih, List.singleton_append]

variable (enc) in
theorem pieces_ascii (s : List UInt8) {b : UInt8} (ascii : b < 128) (t : List UInt8) :
    enc.pieces (s ++ b :: t) = enc.pieces s ++ [b] :: enc.pieces t := by
  induction s using enc.rule with
  | nil => exact pieces_append (enc.ascii b ascii) t
  | char c s isChar ih =>
      rw [List.append_assoc, pieces_append isChar, pieces_append isChar, ih, List.cons_append]
  | broken a s broken ih =>
      have still : ¬ enc.StartsChar (a :: (s ++ b :: t)) := by
        intro starts
        obtain ⟨c, isChar, within⟩ := starts
        have whole := List.prefix_append (a :: s) (b :: t)
        rcases List.prefix_or_prefix_of_prefix within whole with inside | beyond
        · exact broken ⟨c, isChar, inside⟩
        · obtain ⟨rest, rfl⟩ := beyond
          rcases rest with _ | ⟨x, rest⟩
          · exact broken ⟨_, isChar, by simp⟩
          · rw [List.cons_append, List.cons_prefix_cons, List.prefix_append_right_inj,
              List.cons_prefix_cons] at within
            have single := enc.alone _ isChar b (by simp [within.2.1]) ascii
            simp at single
      rw [List.cons_append, pieces_broken still, pieces_broken broken, ih, List.cons_append]

theorem pieces_flatten_append {cs : List (List UInt8)} (chars : ∀ c ∈ cs, enc.isChar c = true)
    (s : List UInt8) :
    enc.pieces (cs.flatten ++ s) = cs ++ enc.pieces s := by
  induction cs with
  | nil => rfl
  | cons c cs ih =>
      rw [List.flatten_cons, List.append_assoc, pieces_append (chars c (by simp)),
        ih fun d member => chars d (by simp [member]), List.cons_append]

@[simp] theorem length_nil : enc.length [] = 0 := rfl

variable (enc) in
theorem length_ascii (s : List UInt8) {b : UInt8} (ascii : b < 128) (t : List UInt8) :
    enc.length (s ++ b :: t) = enc.length s + 1 + enc.length t := by
  simp only [length, pieces_ascii enc s ascii, List.length_append, List.length_cons]
  omega

variable (enc) in
theorem length_cons_ascii {b : UInt8} (ascii : b < 128) (t : List UInt8) :
    enc.length (b :: t) = enc.length t + 1 := by
  have first := enc.length_ascii [] ascii t
  simpa [Nat.add_comm] using first

variable (enc) in
theorem length_append_ascii (s : List UInt8) {t : List UInt8} (ascii : ∀ b ∈ t, b < 128) :
    enc.length (s ++ t) = enc.length s + t.length := by
  induction t using List.reverseRecOn with
  | nil => simp
  | append_singleton t b ih =>
      have last := enc.length_ascii (s ++ t) (ascii b (by simp)) []
      rw [List.append_assoc, ih fun c member => ascii c (by simp [member])] at last
      simpa [Nat.add_assoc] using last

variable (enc) in
theorem valid_ascii (s : List UInt8) {b : UInt8} (ascii : b < 128) (t : List UInt8) :
    enc.valid (s ++ b :: t) = (enc.valid s && enc.valid t) := by
  simp [valid, pieces_ascii enc s ascii, enc.ascii b ascii]

theorem isChar_of_valid {s c : List UInt8} (valid : enc.valid s = true) (member : c ∈ enc.pieces s) :
    enc.isChar c = true :=
  List.all_eq_true.mp valid c member

theorem slice_of_le {s t : List UInt8} {n : Nat} {more : List (List UInt8)}
    (split : enc.pieces t = enc.pieces s ++ more) (enough : n ≤ enc.length s) :
    enc.slice t n = enc.slice s n := by
  rw [slice, slice, split, List.take_append_of_le_length enough]

variable (enc) in
theorem slice_append (s : List UInt8) (n : Nat) : enc.slice s n ++ ((enc.pieces s).drop n).flatten = s := by
  rw [slice, ← List.flatten_append, List.take_append_drop, flatten_pieces]

theorem length_slice_append {s : List UInt8} (valid : enc.valid s = true) {n : Nat}
    (enough : n ≤ enc.length s) (t : List UInt8) : enc.length (enc.slice s n ++ t) = n + enc.length t := by
  have chars : ∀ c ∈ (enc.pieces s).take n, enc.isChar c = true :=
    fun c member => isChar_of_valid valid (List.mem_of_mem_take member)
  rw [length, slice, pieces_flatten_append chars, List.length_append, List.length_take_of_le enough, length]

/-! ## UTF-8 -/

section UTF8

def isTail (b : UInt8) : Bool := 0x80 ≤ b && b ≤ 0xBF

def isUTF8Char : List UInt8 → Bool
  | [a] => a < 0x80
  | [a, b] => 0xC2 ≤ a && a ≤ 0xDF && isTail b
  | [a, b, c] =>
      0xE0 ≤ a && a ≤ 0xEF && (a != 0xE0 || 0xA0 ≤ b) && (a != 0xED || b ≤ 0x9F) && isTail b && isTail c
  | [a, b, c, d] =>
      0xF0 ≤ a && a ≤ 0xF4 && (a != 0xF0 || 0x90 ≤ b) && (a != 0xF4 || b ≤ 0x8F) && isTail b && isTail c &&
        isTail d
  | _ => false

def announced (a : UInt8) : Nat :=
  if a < 0x80 then 1 else if a ≤ 0xDF then 2 else if a ≤ 0xEF then 3 else 4

theorem length_of_isUTF8Char {a : UInt8} {s : List UInt8} (isChar : isUTF8Char (a :: s) = true) :
    (a :: s).length = announced a := by
  unfold isUTF8Char at isChar
  unfold announced
  split at isChar <;> simp_all <;> grind

theorem ascii_of_isUTF8Char {c : List UInt8} (isChar : isUTF8Char c = true) {b : UInt8} (member : b ∈ c)
    (ascii : b < 128) : c = [b] := by
  unfold isUTF8Char at isChar
  split at isChar <;> simp_all [isTail] <;> grind

def utf8 : Encoding where
  isChar := isUTF8Char
  longest := 4
  ascii b ascii := by simpa [isUTF8Char] using ascii
  alone c isChar b member ascii := ascii_of_isUTF8Char isChar member ascii
  prefix_free c d isChar isChar' within := by
    rcases c with _ | ⟨a, c⟩
    · contradiction
    rcases d with _ | ⟨b, d⟩
    · contradiction
    obtain ⟨rfl, _⟩ := List.cons_prefix_cons.mp within
    exact within.eq_of_length ((length_of_isUTF8Char isChar).trans (length_of_isUTF8Char isChar').symm)
  le_longest c isChar := by
    unfold isUTF8Char at isChar
    split at isChar <;> simp_all

end UTF8

end Encoding
end SecureChat.Library
