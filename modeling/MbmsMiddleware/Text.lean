import Mathlib.Data.List.DropRight
import Mathlib.Data.Int.ModEq
import Mathlib.Order.Lattice
import Mathlib.Tactic.Common

/-! Byte strings and the parts of the C++ standard library and of Boost that
cut them into lines, trim them and read or print decimal integers. A `Char`
stands for one byte. -/

abbrev Str := List Char

namespace Text

/-- `std::isspace` in the classic locale. -/
def isspace (c : Char) : Bool := c ∈ [' ', '\t', '\n', '\x0b', '\x0c', '\r']

def trimLeft (s : Str) : Str := s.dropWhile isspace

def trimRight (s : Str) : Str := s.rdropWhile isspace

def trim (s : Str) : Str := trimRight (trimLeft s)

/-- The lines that successive calls of `std::getline` return: text after the
last line break counts as a line only when it is not empty. -/
def getlines : Str → List Str
  | [] => []
  | c :: cs =>
    if c = '\n' then [] :: getlines cs
    else match getlines cs with
      | [] => [[c]]
      | l :: ls => (c :: l) :: ls

/-- Writing each line followed by `std::endl`. -/
def unlines (ls : List Str) : Str := ls.flatMap (· ++ ['\n'])

/-- `s.rfind(p, 0) == 0`. -/
def startsWith (p s : Str) : Bool := p.isPrefixOf s

/-- `s.substr(s.rfind(c) + 1)`, when `c` occurs in `s`. -/
def afterLast (c : Char) (s : Str) : Option Str :=
  if c ∈ s then some (s.rtakeWhile (· ≠ c)) else none

/-- Conversion of a wider integer to `int`. -/
def toInt32 (i : Int) : Int := i.bmod (2 ^ 32)

def digits (s : Str) : Int := Nat.ofDigitChars 10 (s.takeWhile Char.isDigit) 0

/-- `strtol(s, nullptr, 10)`, which saturates at the limits of `long`. -/
def strtol (s : Str) : Int :=
  match trimLeft s with
  | '-' :: r => max (-2 ^ 63) (-digits r)
  | '+' :: r => min (2 ^ 63 - 1) (digits r)
  | r => min (2 ^ 63 - 1) (digits r)

def atoi (s : Str) : Int := toInt32 (strtol s)

/-- `operator<<` for integers. -/
def showInt : Int → Str
  | .ofNat n => Nat.toDigits 10 n
  | .negSucc n => '-' :: Nat.toDigits 10 (n + 1)

theorem getlines_append {l : Str} (hl : '\n' ∉ l) (s : Str) :
    getlines (l ++ '\n' :: s) = l :: getlines s := by
  induction l with
  | nil => simp [getlines]
  | cons c l ih =>
    have hc : c ≠ '\n' := fun h => hl (by simp [h])
    have hh := ih (fun h => hl (by simp [h]))
    simp [getlines, hc, hh]

theorem getlines_unlines {ls : List Str} (h : ∀ l ∈ ls, '\n' ∉ l) : getlines (unlines ls) = ls := by
  induction ls with
  | nil => rfl
  | cons l ls ih =>
    have hh := ih (fun x hx => h x (by simp [hx]))
    have he : unlines (l :: ls) = l ++ '\n' :: unlines ls := by simp [unlines]
    rw [he, getlines_append (h l (by simp)), hh]

theorem newline_notMem_getlines {s l : Str} (h : l ∈ getlines s) : '\n' ∉ l := by
  induction s generalizing l with
  | nil => simp [getlines] at h
  | cons c cs ih =>
    by_cases hc : c = '\n'
    · simp only [getlines, hc, if_true, List.mem_cons] at h
      rcases h with rfl | h
      · simp
      · exact ih h
    · cases hg : getlines cs with
      | nil =>
        have he : l = [c] := by simpa [getlines, hc, hg] using h
        simpa [he] using Ne.symm hc
      | cons l' ls =>
        simp only [getlines, hc, if_false, hg, List.mem_cons] at h
        rcases h with rfl | h
        · have hh : '\n' ∉ l' := ih (by simp [hg])
          simpa [Ne.symm hc] using hh
        · exact ih (by simp [hg, h])

theorem mem_of_mem_trim {s : Str} {c : Char} (h : c ∈ trim s) : c ∈ s :=
  (List.dropWhile_sublist isspace).subset ((List.rdropWhile_prefix isspace _).subset h)

theorem getLast_trim_not_space {s : Str} (h : trim s ≠ []) : isspace ((trim s).getLast h) = false := by
  have hh := List.rdropWhile_last_not isspace (trimLeft s) h
  exact Bool.eq_false_iff.mpr hh

/-- Lines that end in LF or, where marked, in CRLF. -/
def document (ls : List (Str × Bool)) : Str :=
  ls.flatMap fun l => l.1 ++ if l.2 then ['\r', '\n'] else ['\n']

theorem getlines_document {ls : List (Str × Bool)} (h : ∀ l ∈ ls, '\n' ∉ l.1) :
    getlines (document ls) = ls.map fun l => l.1 ++ if l.2 then ['\r'] else [] := by
  have hunlines : document ls = unlines (ls.map fun l => l.1 ++ if l.2 then ['\r'] else []) := by
    rw [document, unlines, List.flatMap_map]
    refine List.flatMap_congr (fun l _ => ?_)
    cases l.2 <;> simp
  rw [hunlines, getlines_unlines]
  intro line hline
  obtain ⟨l, hl, rfl⟩ := List.mem_map.mp hline
  have hn := h l hl
  cases l.2 <;> simp [hn]

theorem trim_concat {c : Char} (hc : isspace c = true) (s : Str) : trim (s ++ [c]) = trim s := by
  by_cases hs : trimLeft s = []
  · have hall : ∀ d ∈ s, isspace d = true := List.dropWhile_eq_nil_iff.mp hs
    have hcat : trimLeft (s ++ [c]) = [] := List.dropWhile_eq_nil_iff.mpr (fun d hd => by
      rcases List.mem_append.mp hd with hd | hd
      · exact hall d hd
      · rw [List.mem_singleton.mp hd, hc])
    rw [trim, trim, hcat, hs]
  · have hcat : trimLeft (s ++ [c]) = trimLeft s ++ [c] := by
      simp only [trimLeft] at hs ⊢
      rw [List.dropWhile_append, if_neg (by simpa using hs)]
    rw [trim, trim, hcat, trimRight, List.rdropWhile_concat_pos _ _ _ hc]
    rfl

/-- Trimming takes the rest of the line ending away. -/
theorem trim_getlines_document {ls : List (Str × Bool)} (h : ∀ l ∈ ls, '\n' ∉ l.1) :
    (getlines (document ls)).map trim = (ls.map Prod.fst).map trim := by
  rw [getlines_document h, List.map_map, List.map_map]
  refine List.map_congr_left (fun l _ => ?_)
  cases hl : l.2 with
  | false => simp [hl]
  | true => simpa [hl] using trim_concat (by decide) l.1

theorem trimLeft_cons {c : Char} {s : Str} (hc : isspace c = false) : trimLeft (c :: s) = c :: s := by
  simp [trimLeft, hc]

theorem trimRight_of_getLast {s : Str} (h : ∀ hne : s ≠ [], isspace (s.getLast hne) = false) :
    trimRight s = s :=
  List.rdropWhile_eq_self_iff.mpr (fun hne => by simp [h hne])

/-- Trimming after a prefix that neither starts nor ends with white space
leaves the prefix alone. -/
theorem trim_append {c d : Char} {p s : Str} (hc : isspace c = false) (hd : isspace d = false) :
    trim (c :: p ++ d :: s) = c :: p ++ d :: trimRight s := by
  have hl : trimLeft (c :: p ++ d :: s) = c :: p ++ d :: s := trimLeft_cons hc
  rw [trim, hl]
  induction s using List.reverseRecOn with
  | nil =>
    refine trimRight_of_getLast (fun hne => ?_)
    simp [hd]
  | append_singleton s x ih =>
    by_cases hx : isspace x = true
    · have he : c :: p ++ d :: (s ++ [x]) = (c :: p ++ d :: s) ++ [x] := by simp
      have hr := ih (trimLeft_cons hc)
      simp only [trimRight] at hr ⊢
      rw [he, List.rdropWhile_concat_pos _ _ _ hx, hr, List.rdropWhile_concat_pos _ _ _ hx]
    · have hx' : isspace x = false := by simpa using hx
      have hs : trimRight (s ++ [x]) = s ++ [x] := trimRight_of_getLast (fun _ => by simp [hx'])
      rw [hs]
      exact trimRight_of_getLast (fun _ => by simp [hx'])

theorem trim_of_ends {c : Char} {s : Str} (hc : isspace c = false)
    (hl : isspace ((c :: s).getLast (List.cons_ne_nil c s)) = false) : trim (c :: s) = c :: s := by
  rw [trim, trimLeft_cons hc]
  exact trimRight_of_getLast (fun _ => hl)

theorem startsWith_append (p s : Str) : startsWith p (p ++ s) = true := by
  simp [startsWith]

theorem startsWith_eq_false_of_head {c : Char} {p s : Str} (hp : p.head? = some c)
    (h : startsWith [c] s = false) : startsWith p s = false := by
  obtain ⟨p, rfl⟩ := List.head?_eq_some_iff.mp hp
  cases s with
  | nil => rfl
  | cons d s =>
    simp only [startsWith, List.isPrefixOf, Bool.and_true] at h ⊢
    rw [h, Bool.false_and]

/-- Two texts that differ where both are defined. -/
theorem startsWith_append_eq_false {p q : Str} (h : ¬ p <+: q) (h' : ¬ q <+: p) (s : Str) :
    startsWith p (q ++ s) = false := by
  rw [startsWith, Bool.eq_false_iff, ne_eq, List.isPrefixOf_iff_prefix]
  intro hp
  exact (List.prefix_or_prefix_of_prefix hp (List.prefix_append q s)).elim h h'

/-- Only what stands behind the last occurrence counts. -/
theorem afterLast_cons_append (c : Char) (p s : Str) :
    afterLast c (p ++ c :: s) = some (s.rtakeWhile (· ≠ c)) := by
  have hm : c ∈ p ++ c :: s := by simp
  rw [afterLast, if_pos hm]
  congr 1
  induction s using List.reverseRecOn with
  | nil => simp [List.rtakeWhile_concat_neg]
  | append_singleton s x ih =>
    have he : p ++ c :: (s ++ [x]) = (p ++ c :: s) ++ [x] := by simp
    rw [he]
    by_cases hx : x = c
    · rw [List.rtakeWhile_concat_neg _ _ _ (by simpa using hx),
        List.rtakeWhile_concat_neg _ _ _ (by simpa using hx)]
    · rw [List.rtakeWhile_concat_pos _ _ _ (by simpa using hx),
        List.rtakeWhile_concat_pos _ _ _ (by simpa using hx), ih (by simp)]

/-- Text in front of the last occurrence does not matter. -/
theorem rtakeWhile_append_of_mem {c : Char} {s : Str} (h : c ∈ s) (p : Str) :
    (p ++ s).rtakeWhile (· ≠ c) = s.rtakeWhile (· ≠ c) := by
  obtain ⟨a, b, rfl⟩ := List.append_of_mem h
  have h1 := afterLast_cons_append c (p ++ a) b
  have h2 := afterLast_cons_append c a b
  rw [afterLast, if_pos (by simp)] at h1 h2
  rw [← List.append_assoc, Option.some.inj h1, Option.some.inj h2]

/-- Text without the character behind it stays. -/
theorem rtakeWhile_append_of_notMem {c : Char} {t : Str} (h : c ∉ t) (s : Str) :
    (s ++ t).rtakeWhile (· ≠ c) = s.rtakeWhile (· ≠ c) ++ t := by
  induction t using List.reverseRecOn with
  | nil => simp
  | append_singleton t d ih =>
    rw [List.mem_append, not_or, List.mem_singleton] at h
    rw [← List.append_assoc, List.rtakeWhile_concat_pos _ _ _ (by simpa using Ne.symm h.2), ih h.1,
      List.append_assoc]

theorem mem_trimRight {c : Char} (hc : isspace c = false) {s : Str} : c ∈ trimRight s ↔ c ∈ s := by
  constructor
  · exact fun h => (List.rdropWhile_prefix isspace s).subset h
  · intro h
    rw [← List.rdropWhile_append_rtakeWhile (p := isspace) (l := s)] at h
    refine (List.mem_append.mp h).resolve_right (fun hm => ?_)
    have hspace := List.mem_rtakeWhile_imp hm
    simp [hc] at hspace

theorem rtakeWhile_of_notMem {c : Char} {s : Str} (hs : c ∉ s) : s.rtakeWhile (· ≠ c) = s :=
  List.rtakeWhile_eq_self_iff.mpr (fun x hx => by
    simp only [ne_eq, decide_not, Bool.not_eq_eq_eq_not, Bool.not_true, decide_eq_false_iff_not]
    rintro rfl
    exact hs hx)

theorem afterLast_append {c : Char} {s : Str} (p : Str) (hs : c ∉ s) :
    afterLast c (p ++ c :: s) = some s := by
  rw [afterLast_cons_append, rtakeWhile_of_notMem hs]

theorem isDigit_of_mem_showInt {i : Int} {c : Char} (h : c ∈ showInt i) :
    c = '-' ∨ c.isDigit = true := by
  cases i with
  | ofNat n => exact .inr (Nat.isDigit_of_mem_toDigits (by decide) (by decide) h)
  | negSucc n =>
    rcases List.mem_cons.mp h with h | h
    · exact .inl h
    · exact .inr (Nat.isDigit_of_mem_toDigits (by decide) (by decide) h)

theorem notMem_showInt {c : Char} (hc : c.isDigit = false) (hm : c ≠ '-') (i : Int) :
    c ∉ showInt i := by
  intro h
  rcases isDigit_of_mem_showInt h with h | h
  · exact hm h
  · simp [hc] at h

theorem showInt_chars {i : Int} {c : Char} (h : c ∈ showInt i) :
    c ≠ '"' ∧ c ≠ ',' ∧ c ≠ '=' ∧ c ≠ ':' ∧ c ≠ '\n' := by
  refine ⟨?_, ?_, ?_, ?_, ?_⟩
  all_goals
    rintro rfl
    exact notMem_showInt (by decide) (by decide) i h

theorem isspace_of_isDigit {c : Char} (h : c.isDigit = true) : isspace c = false := by
  apply decide_eq_false
  intro hm
  simp only [List.mem_cons, List.not_mem_nil, or_false] at hm
  rcases hm with rfl | rfl | rfl | rfl | rfl | rfl <;> simp at h

theorem isspace_of_mem_showInt {i : Int} {c : Char} (h : c ∈ showInt i) : isspace c = false := by
  rcases isDigit_of_mem_showInt h with rfl | h
  · decide
  · exact isspace_of_isDigit h

theorem digits_of_all {s : Str} (h : ∀ c ∈ s, c.isDigit = true) : digits s = Nat.ofDigitChars 10 s 0 := by
  rw [digits, List.takeWhile_eq_self_iff.mpr h]

/-- Text without white space or a sign at its front. -/
theorem strtol_of_isDigit {c : Char} (hc : c.isDigit = true) (s : Str) :
    strtol (c :: s) = min (2 ^ 63 - 1) (digits (c :: s)) := by
  have hl : trimLeft (c :: s) = c :: s := trimLeft_cons (isspace_of_isDigit hc)
  have hm : c ≠ '-' := fun h => by simp [h] at hc
  have hp : c ≠ '+' := fun h => by simp [h] at hc
  rw [strtol, hl]
  split
  · exact absurd (by simp_all) hm
  · exact absurd (by simp_all) hp
  · rfl

theorem strtol_digits {s : Str} (hne : s ≠ []) (h : ∀ c ∈ s, c.isDigit = true)
    (hlt : Nat.ofDigitChars 10 s 0 < 2 ^ 63) : strtol s = Nat.ofDigitChars 10 s 0 := by
  obtain ⟨c, cs, rfl⟩ := List.exists_cons_of_ne_nil hne
  rw [strtol_of_isDigit (h c List.mem_cons_self), digits_of_all h]
  omega

theorem toDigits_isDigit {n : Nat} {c : Char} (h : c ∈ Nat.toDigits 10 n) : c.isDigit = true :=
  Nat.isDigit_of_mem_toDigits (by decide) (by decide) h

theorem strtol_showInt {i : Int} (hlo : -2 ^ 63 ≤ i) (hhi : i < 2 ^ 63) :
    strtol (showInt i) = i := by
  cases i with
  | ofNat n =>
    have hn : n < 2 ^ 63 := by simp only [Int.ofNat_eq_natCast] at hhi; omega
    rw [showInt, strtol_digits Nat.toDigits_ne_nil (fun c hc => toDigits_isDigit hc)
      (by rwa [Nat.ofDigitChars_ten_toDigits]), Nat.ofDigitChars_ten_toDigits]
    rfl
  | negSucc n =>
    have hl : trimLeft (showInt (.negSucc n)) = '-' :: Nat.toDigits 10 (n + 1) :=
      trimLeft_cons (by decide)
    simp only [strtol, hl, digits_of_all (fun c hc => toDigits_isDigit hc),
      Nat.ofDigitChars_ten_toDigits]
    rw [Int.negSucc_eq] at hlo ⊢
    push_cast
    exact max_eq_right (by omega)

theorem toInt32_of_range {i : Int} (hlo : -2 ^ 31 ≤ i) (hhi : i < 2 ^ 31) : toInt32 i = i := by
  apply Int.bmod_eq_of_le <;> omega

theorem toInt32_range (i : Int) : -2 ^ 31 ≤ toInt32 i ∧ toInt32 i < 2 ^ 31 := by
  have h1 := Int.le_bmod (x := i) (m := 2 ^ 32) (by decide)
  have h2 := Int.bmod_lt (x := i) (m := 2 ^ 32) (by decide)
  simp only [toInt32]
  omega

/-- Reading back a printed `int`. -/
theorem atoi_showInt {i : Int} (hlo : -2 ^ 31 ≤ i) (hhi : i < 2 ^ 31) : atoi (showInt i) = i := by
  rw [atoi, strtol_showInt (by omega) (by omega), toInt32_of_range hlo hhi]

/-- Reading the decimal digits of an `int`. -/
theorem atoi_digits {s : Str} (hne : s ≠ []) (h : ∀ c ∈ s, c.isDigit = true)
    (hlt : Nat.ofDigitChars 10 s 0 < 2 ^ 31) : atoi s = Nat.ofDigitChars 10 s 0 := by
  rw [atoi, strtol_digits hne h (hlt.trans (by decide)), toInt32_of_range (by omega) (by omega)]

end Text
