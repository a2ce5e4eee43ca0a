import MbmsMiddleware.SessionDescription

/-! What the lines of a session description set: the greedy groups of its media
line for any number of tokens, and the lines that are not looked at. -/

namespace MbmsMiddleware

namespace ContentStream

/-- Without a blank that can be followed by the rest there is no match. -/
theorem greedyBlank_eq_none {α : Type} {rest : Str → Option α} {s : Str}
    (h : ∀ a b, s = a ++ ' ' :: b → rest b = none) (pre : Str) : greedyBlank rest pre s = none := by
  induction s generalizing pre with
  | nil => rfl
  | cons c cs ih =>
    have hcs := ih (fun a b he => h (c :: a) b (by rw [he]; rfl)) (pre ++ [c])
    rw [greedyBlank, hcs]
    dsimp only
    split_ifs with hblank
    · rw [h [] cs (by rw [hblank.1]; rfl), Option.map_none]
    · rfl

/-- The last blank that can be followed by the rest ends the first group. -/
theorem greedyBlank_append {α : Type} {rest : Str → Option α} {x y : Str} {r : α} (hy : rest y = some r)
    (hlast : ∀ a b, y = a ++ ' ' :: b → rest b = none) (pre : Str) (hne : pre ++ x ≠ []) :
    greedyBlank rest pre (x ++ ' ' :: y) = some (pre ++ x, r) := by
  induction x generalizing pre with
  | nil =>
    have hpre : pre ≠ [] := by simpa using hne
    rw [List.nil_append, greedyBlank, greedyBlank_eq_none hlast]
    simp [hpre, hy]
  | cons c x ih =>
    have hrec := ih (pre ++ [c]) (by simp)
    rw [List.cons_append, greedyBlank, hrec]
    simp

/-- A text without blanks and line ends. -/
structure Token (s : Str) : Prop where
  ne_nil : s ≠ []
  blank : ' ' ∉ s
  chars : ∀ c ∈ s, isLineTerminator c = false

theorem lineChars_of_all {s : Str} (h : s.all (fun c => !isLineTerminator c) = true) :
    ∀ c ∈ s, isLineTerminator c = false := fun c hc => by
  simpa using List.all_eq_true.mp h c hc

theorem token_fluteUdp : Token fluteUdp := ⟨by decide, by decide, lineChars_of_all (by decide)⟩

theorem matchSdpLine_eq_some {field : Char} {value : Str} (hlow : 'a' ≤ field) (hhigh : field ≤ 'z')
    (hne : value ≠ []) (hchars : ∀ c ∈ field :: '=' :: value, isLineTerminator c = false) :
    matchSdpLine (field :: '=' :: value) = some (field, value) := by
  have hvalue : value.all (fun c => !isLineTerminator c) = true :=
    List.all_eq_true.mpr (fun c hc => by simp [hchars c (by simp [hc])])
  rw [matchSdpLine, if_pos ⟨hlow, hhigh, hne, hvalue⟩]

/-- A carriage return is left at the end of a line that ends in CRLF, and is
matched by none of the expressions. -/
theorem lineValue_cr (line : Str) : lineValue (line ++ ['\r']) = .ok none := by
  have hnone : matchSdpLine (line ++ ['\r']) = none := by
    unfold matchSdpLine
    split
    · next field value he =>
      rw [if_neg]
      rintro ⟨-, -, hne, hall⟩
      have hmem : '\r' ∈ value := by
        have hlast : (line ++ ['\r']).getLast? = (field :: '=' :: value).getLast? := by rw [he]
        rw [List.getLast?_concat, List.getLast?_cons_cons, List.getLast?_cons_of_ne_nil hne] at hlast
        exact List.mem_of_getLast? hlast.symm
      exact absurd (List.all_eq_true.mp hall _ hmem) (by decide)
    · rfl
  rw [lineValue, hnone]

theorem matchMedia2_eq_some {x y z : Str} (hx : x ≠ []) (hy : Token y) (hz : Token z) :
    matchMedia2 ("application ".toList ++ (x ++ ' ' :: (y ++ ' ' :: z))) = some (x, y, z) := by
  have hsome : nonempty z = some z := if_neg hz.ne_nil
  have htail : greedyBlank nonempty [] (y ++ ' ' :: z) = some (y, z) := by
    refine greedyBlank_append hsome (fun a b he => ?_) [] (by simpa using hy.ne_nil)
    exact absurd (by rw [he]; simp) hz.blank
  have hlast : ∀ a b, y ++ ' ' :: z = a ++ ' ' :: b → greedyBlank nonempty [] b = none := by
    intro a b he
    obtain ⟨-, -, rfl⟩ := (List.append_cons_inj_of_notMem hy.blank hz.blank).mp he
    exact greedyBlank_eq_none (fun a' b' he' => absurd (by rw [he']; simp) hz.blank) []
  have happ : matchApplication ("application ".toList ++ (x ++ ' ' :: (y ++ ' ' :: z))) =
      some (x ++ ' ' :: (y ++ ' ' :: z)) := by
    rw [matchApplication, if_pos (Text.startsWith_append _ _)]
    rfl
  rw [matchMedia2, happ, Option.bind_some]
  exact greedyBlank_append htail hlast [] (by simpa using hx)

/-- The last two tokens are the type and what is skipped, and everything before
them is the port. -/
theorem lineValue_media {x y z : Str} (hx : x ≠ []) (hy : Token y) (hz : Token z)
    (hchars : ∀ c ∈ 'm' :: '=' :: ("application ".toList ++ (x ++ ' ' :: (y ++ ' ' :: z))),
      isLineTerminator c = false) :
    lineValue ('m' :: '=' :: ("application ".toList ++ (x ++ ' ' :: (y ++ ' ' :: z)))) =
      .ok (some (.media x y)) := by
  rw [lineValue, matchSdpLine_eq_some (by decide) (by decide) (by simp) hchars]
  simp only [matchMedia2_eq_some hx hy hz]

/-- `m=application`, port, protocol and formats. -/
def applicationLine (port proto : Str) (formats : List Str) : Str :=
  'm' :: '=' :: ("application ".toList ++ (port ++ ' ' :: (proto ++ formats.flatMap (' ' :: ·))))

theorem applicationLine_chars {port proto : Str} {formats : List Str} (hport : Token port)
    (hproto : Token proto) (hformats : ∀ format ∈ formats, Token format) :
    ∀ c ∈ applicationLine port proto formats, isLineTerminator c = false := by
  have hword : ∀ c ∈ 'm' :: '=' :: "application ".toList, isLineTerminator c = false :=
    lineChars_of_all (by decide)
  have hblank : isLineTerminator ' ' = false := by decide
  intro c hc
  simp only [applicationLine, ← List.cons_append, List.mem_append, List.mem_cons (b := ' '),
    List.mem_flatMap] at hc
  rcases hc with hc | hc | (rfl | hc) | ⟨format, hf, rfl | hc⟩
  · exact hword c hc
  · exact hport.chars c hc
  · exact hblank
  · exact hproto.chars c hc
  · exact hblank
  · exact (hformats format hf).chars c hc

theorem lineValue_applicationLine {port proto format : Str} (hport : Token port) (hproto : Token proto)
    (hformat : Token format) :
    lineValue (applicationLine port proto [format]) = .ok (some (.media port proto)) := by
  have hformats : ∀ f ∈ [format], Token f := by simpa using hformat
  have hchars := applicationLine_chars hport hproto hformats
  have htail : [format].flatMap (' ' :: ·) = ' ' :: format := List.append_nil _
  rw [applicationLine, htail] at hchars ⊢
  exact lineValue_media hport.ne_nil hproto hformat hchars

/-- With more formats the port takes up the protocol. -/
theorem lineValue_applicationLine_of_length {port proto : Str} {formats : List Str} (hport : Token port)
    (hproto : Token proto) (hformats : ∀ format ∈ formats, Token format) (hlen : 2 ≤ formats.length) :
    ∃ x y, ' ' ∈ x ∧ lineValue (applicationLine port proto formats) = .ok (some (.media x y)) := by
  have hchars := applicationLine_chars hport hproto hformats
  rcases List.eq_nil_or_concat' formats with rfl | ⟨front, z, rfl⟩
  · simp at hlen
  rcases List.eq_nil_or_concat' front with rfl | ⟨front, y, rfl⟩
  · simp at hlen
  have hsplit : port ++ ' ' :: (proto ++ (front ++ [y] ++ [z]).flatMap (' ' :: ·)) =
      (port ++ ' ' :: (proto ++ front.flatMap (' ' :: ·))) ++ ' ' :: (y ++ ' ' :: z) := by
    simp
  refine ⟨port ++ ' ' :: (proto ++ front.flatMap (' ' :: ·)), y, by simp, ?_⟩
  rw [applicationLine, hsplit] at hchars ⊢
  exact lineValue_media (by simp) (hformats y (by simp)) (hformats z (by simp)) hchars

/-- The line is another connection line with a readable address. -/
def SetsAddress (line : Str) : Prop :=
  ∃ value addr, line = 'c' :: '=' :: value ∧ matchConnection value = some addr

/-- The line is another media line for applications. -/
def SetsMedia (line : Str) : Prop := ∃ r, line = 'm' :: '=' :: ("application ".toList ++ r)

theorem matchConnection_eq {value addr : Str} (h : matchConnection value = some addr) :
    ∃ version r, value = "IN IP".toList ++ version :: ' ' :: r ∧ addr = r.takeWhile isAddressChar := by
  unfold matchConnection at h
  split_ifs at h with hstart
  split at h
  · next version r hr =>
    obtain ⟨t, rfl⟩ := List.isPrefixOf_iff_prefix.mp hstart
    refine ⟨version, r, ?_, ?_⟩
    · rw [← hr]
      rfl
    · unfold nonempty at h
      split_ifs at h
      exact (Option.some.inj h).symm
  · cases h

theorem matchConnection_ip4 {addr suffix : Str} (hne : addr ≠ [])
    (haddr : ∀ c ∈ addr, isAddressChar c = true) (hsuffix : ∀ c, suffix.head? = some c → isAddressChar c = false) :
    matchConnection ("IN IP4 ".toList ++ (addr ++ suffix)) = some addr := by
  have htake : (addr ++ suffix).takeWhile isAddressChar = addr := by
    rw [List.takeWhile_append_of_pos haddr]
    cases suffix with
    | nil => simp
    | cons c suffix => simp [hsuffix c rfl]
  have hstart : Text.startsWith "IN IP".toList ("IN IP4 ".toList ++ (addr ++ suffix)) = true := rfl
  have hdrop : ("IN IP4 ".toList ++ (addr ++ suffix)).drop 5 = '4' :: ' ' :: (addr ++ suffix) := rfl
  rw [matchConnection, if_pos hstart, hdrop]
  simp only [htake]
  exact if_neg hne

theorem stoul_digits {s : Str} (hne : s ≠ []) (h : ∀ c ∈ s, c.isDigit = true)
    (hlt : Nat.ofDigitChars 10 s 0 < 2 ^ 64) : stoul s = .ok (Nat.ofDigitChars 10 s 0) := by
  obtain ⟨c, cs, rfl⟩ := List.exists_cons_of_ne_nil hne
  have hc := h c List.mem_cons_self
  have htrim : Text.trimLeft (c :: cs) = c :: cs := Text.trimLeft_cons (Text.isspace_of_isDigit hc)
  have htake : (c :: cs).takeWhile Char.isDigit = c :: cs := List.takeWhile_eq_self_iff.mpr h
  have hm : c ≠ '-' := fun he => by simp [he] at hc
  have hp : c ≠ '+' := fun he => by simp [he] at hc
  rw [stoul, htrim]
  split
  next negative r hsign =>
    have hplain : negative = false ∧ r = c :: cs := by
      split at hsign <;> simp_all
    obtain ⟨rfl, rfl⟩ := hplain
    simp only [htake, if_neg hne, if_neg (not_le.mpr hlt)]
    rfl

theorem lineValue_address {line value addr : Str} (hchars : ∀ c ∈ line, isLineTerminator c = false)
    (hline : line = 'c' :: '=' :: value) (h : matchConnection value = some addr) :
    lineValue line = .ok (some (.address addr)) := by
  subst hline
  have hne : value ≠ [] := by
    rintro rfl
    cases h
  rw [lineValue, matchSdpLine_eq_some (by decide) (by decide) hne hchars]
  simp only [h, Option.map_some]

theorem lineValue_tsi {number : Str} (hne : number ≠ []) (h : ∀ c ∈ number, c.isDigit = true)
    (hlt : Nat.ofDigitChars 10 number 0 < 2 ^ 64)
    (hchars : ∀ c ∈ 'a' :: '=' :: ("flute-tsi:".toList ++ number), isLineTerminator c = false) :
    lineValue ('a' :: '=' :: ("flute-tsi:".toList ++ number)) =
      .ok (some (.tsi (Nat.ofDigitChars 10 number 0))) := by
  have hmatch : matchFluteTsi ("flute-tsi:".toList ++ number) = some number := by
    rw [matchFluteTsi, if_pos (Text.startsWith_append _ _)]
    exact if_neg hne
  rw [lineValue, matchSdpLine_eq_some (by decide) (by decide) (by simp) hchars]
  simp only [hmatch, stoul_digits hne h hlt]
  rfl

theorem matchSdpLine_eq {line value : Str} {field : Char} (h : matchSdpLine line = some (field, value)) :
    line = field :: '=' :: value := by
  unfold matchSdpLine at h
  split at h
  · split_ifs at h
    cases h
    rfl
  · cases h

theorem lineValue_eq_none {line : Str} (haddr : ¬ SetsAddress line) (hmedia : ¬ SetsMedia line)
    (htsi : ∀ r, line ≠ 'a' :: '=' :: ("flute-tsi:".toList ++ r)) : lineValue line = .ok none := by
  unfold lineValue
  split
  · rfl
  · next value hm =>
    have hnone : matchConnection value = none :=
      Option.eq_none_iff_forall_ne_some.mpr (fun addr h => haddr ⟨value, addr, matchSdpLine_eq hm, h⟩)
    rw [hnone, Option.map_none]
  · next value hm =>
    have hnone : matchApplication value = none := by
      unfold matchApplication
      split_ifs with hstart
      · obtain ⟨r, rfl⟩ := List.isPrefixOf_iff_prefix.mp hstart
        exact absurd ⟨r, matchSdpLine_eq hm⟩ hmedia
      · rfl
    rw [matchMedia2, matchMedia, hnone]
    rfl
  · next value hm =>
    have hnone : matchFluteTsi value = none := by
      unfold matchFluteTsi
      split_ifs with hstart
      · obtain ⟨r, rfl⟩ := List.isPrefixOf_iff_prefix.mp hstart
        exact absurd (matchSdpLine_eq hm) (htsi r)
      · rfl
    rw [hnone]
  · rfl

theorem linesValues_eq {lines : List Str} (h : ∀ line ∈ lines, ∃ v, lineValue line = .ok v) :
    linesValues lines = (lines.filterMap fun line => (lineValue line).toOption.join, none) := by
  induction lines with
  | nil => rfl
  | cons line lines ih =>
    obtain ⟨v, hv⟩ := h line List.mem_cons_self
    have hrest := ih (fun l hl => h l (List.mem_cons_of_mem _ hl))
    cases v <;> simp [linesValues, hv, hrest, Except.toOption]

end ContentStream

end MbmsMiddleware
