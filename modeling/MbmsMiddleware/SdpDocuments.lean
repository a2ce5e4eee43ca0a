import MbmsMiddleware.SdpLines
import MbmsMiddleware.SdpRuns

/-! Session descriptions with one connection, one media and one TSI line among
others, and what is read of them. -/

namespace MbmsMiddleware

namespace ContentStream

/-- A line, by what it is for. -/
inductive SdpItem where
  | connection
  | media
  | fluteTsi
  | other (line : Str)
  deriving DecidableEq, Repr

/-- A description with what its three lines announce, and its lines in order,
each with whether it ends in CRLF. -/
structure SdpDocument where
  addr : Str
  suffix : Str := []
  port : Str
  formats : List Str
  number : Str
  items : List (SdpItem × Bool)

namespace SdpDocument

def line (d : SdpDocument) : SdpItem → Str
  | .connection => 'c' :: '=' :: ("IN IP4 ".toList ++ (d.addr ++ d.suffix))
  | .media => applicationLine d.port fluteUdp d.formats
  | .fluteTsi => 'a' :: '=' :: ("flute-tsi:".toList ++ d.number)
  | .other line => line

def lines (d : SdpDocument) : List (Str × Bool) := d.items.map fun x => (d.line x.1, x.2)

def text (d : SdpDocument) : Str := Text.document d.lines

def tsi (d : SdpDocument) : Nat := Nat.ofDigitChars 10 d.number 0

/-- A line that is none of the three: a connection line has another address, a
media line another protocol. -/
structure Other (d : SdpDocument) (line : Str) : Prop where
  chars : ∀ c ∈ line, isLineTerminator c = false
  connection : ∀ version r, line = 'c' :: '=' :: ("IN IP".toList ++ version :: ' ' :: r) →
    r.takeWhile isAddressChar ≠ d.addr
  media : SetsMedia line → ∃ port proto formats, line = applicationLine port proto formats ∧
    Token port ∧ Token proto ∧ formats ≠ [] ∧ (∀ format ∈ formats, Token format) ∧ proto ≠ fluteUdp
  fluteTsi : ∀ r, line ≠ 'a' :: '=' :: ("flute-tsi:".toList ++ r)

structure WellFormed (d : SdpDocument) : Prop where
  addr_ne_nil : d.addr ≠ []
  addr_chars : ∀ c ∈ d.addr, isAddressChar c = true
  suffix : d.suffix = [] ∨ ∃ ttl, d.suffix = '/' :: ttl ∧ ∀ c ∈ ttl, isLineTerminator c = false
  port : Token d.port
  formats_ne_nil : d.formats ≠ []
  formats : ∀ format ∈ d.formats, Token format
  number_ne_nil : d.number ≠ []
  number : ∀ c ∈ d.number, c.isDigit = true
  tsi : d.tsi < 2 ^ 64
  once : ∀ item ∈ [.connection, .media, .fluteTsi], (d.items.map Prod.fst).count item = 1
  others : ∀ line, .other line ∈ d.items.map Prod.fst → d.Other line

/-- The item's line ends in LF, and none behind it that does sets the same. -/
def StandsLast (d : SdpDocument) (item : SdpItem) (Sets : Str → Prop) : Prop :=
  ∃ pre post, d.items = pre ++ (item, false) :: post ∧
    ∀ line, (.other line, false) ∈ post → ¬ Sets line

/-- No CRLF ends a line that counts, no later line overrides it, and there is
one format only. -/
structure Readable (d : SdpDocument) : Prop where
  connection : d.StandsLast .connection SetsAddress
  media : d.StandsLast .media SetsMedia
  formats : d.formats.length = 1
  fluteTsi : (.fluteTsi, false) ∈ d.items ∨ d.tsi = 0

def value (d : SdpDocument) (x : SdpItem × Bool) : Option SdpValue :=
  match lineValue (d.line x.1 ++ if x.2 then ['\r'] else []) with
  | .ok v => v
  | .error _ => none

variable {d : SdpDocument}

/-- Another line sets another address, another media, or nothing. -/
theorem Other.lineValue_cases (hport : Token d.port) {line : Str} (h : d.Other line) :
    (∃ addr, SetsAddress line ∧ ¬ SetsMedia line ∧ lineValue line = .ok (some (.address addr)) ∧
      addr ≠ d.addr) ∨
    (∃ port type, SetsMedia line ∧ ¬ SetsAddress line ∧ lineValue line = .ok (some (.media port type)) ∧
      (port, type) ≠ (d.port, fluteUdp)) ∨
    (¬ SetsAddress line ∧ ¬ SetsMedia line ∧ lineValue line = .ok none) := by
  by_cases haddr : SetsAddress line
  · obtain ⟨value, addr, hline, hm⟩ := haddr
    have hnot : ¬ SetsMedia line := by
      rintro ⟨r, hr⟩
      rw [hline] at hr
      exact absurd (List.cons.inj hr).1 (by decide)
    obtain ⟨version, r, hvalue, haddr⟩ := matchConnection_eq hm
    have hother := h.connection version r (by rw [hline, hvalue])
    exact .inl ⟨addr, ⟨value, addr, hline, hm⟩, hnot, lineValue_address h.chars hline hm, by rwa [haddr]⟩
  by_cases hmedia : SetsMedia line
  · obtain ⟨port, proto, formats, hline, htport, htproto, hne, hformats, hproto⟩ := h.media hmedia
    refine .inr (.inl ?_)
    by_cases hlen : 2 ≤ formats.length
    · obtain ⟨x, y, hblank, hvalue⟩ := lineValue_applicationLine_of_length htport htproto hformats hlen
      refine ⟨x, y, hmedia, haddr, by rw [hline, hvalue], fun he => ?_⟩
      rw [(Prod.mk.inj he).1] at hblank
      exact hport.blank hblank
    · have hone : formats.length = 1 := by
        have hpos := List.length_pos_of_ne_nil hne
        omega
      obtain ⟨format, rfl⟩ := List.length_eq_one_iff.mp hone
      have hvalue := lineValue_applicationLine htport htproto (hformats format (by simp))
      exact ⟨port, proto, hmedia, haddr, by rw [hline, hvalue], fun he => hproto (Prod.mk.inj he).2⟩
  · exact .inr (.inr ⟨haddr, hmedia, lineValue_eq_none haddr hmedia h.fluteTsi⟩)

theorem WellFormed.chars (hd : d.WellFormed) {item : SdpItem} (hm : item ∈ d.items.map Prod.fst) :
    ∀ c ∈ d.line item, isLineTerminator c = false := by
  have hdigit : ∀ c : Char, isAddressChar c = true → isLineTerminator c = false := by
    intro c hc
    refine Bool.eq_false_iff.mpr (fun ht => ?_)
    simp only [isLineTerminator, Bool.or_eq_true, decide_eq_true_eq] at ht
    rcases ht with rfl | rfl <;> exact absurd hc (by decide)
  cases item with
  | connection =>
    have hword : ∀ c ∈ 'c' :: '=' :: "IN IP4 ".toList, isLineTerminator c = false :=
      lineChars_of_all (by decide)
    intro c hc
    simp only [line, ← List.cons_append, List.mem_append] at hc
    rcases hc with hc | hc | hc
    · exact hword c hc
    · exact hdigit c (hd.addr_chars c hc)
    · rcases hd.suffix with hs | ⟨ttl, hs, httl⟩
      · simp [hs] at hc
      · rw [hs] at hc
        rcases List.mem_cons.mp hc with rfl | hc
        · decide
        · exact httl c hc
  | media =>
    exact applicationLine_chars hd.port token_fluteUdp hd.formats
  | fluteTsi =>
    have hword : ∀ c ∈ 'a' :: '=' :: "flute-tsi:".toList, isLineTerminator c = false :=
      lineChars_of_all (by decide)
    intro c hc
    simp only [line, ← List.cons_append, List.mem_append] at hc
    rcases hc with hc | hc
    · exact hword c hc
    · exact hdigit c (by simp [isAddressChar, hd.number c hc])
  | other line => exact (hd.others line hm).chars

theorem value_crlf (item : SdpItem) : d.value (item, true) = none := by
  simp only [value, if_true, lineValue_cr]

theorem value_of_lineValue {item : SdpItem} {v : Option SdpValue} (h : lineValue (d.line item) = .ok v) :
    d.value (item, false) = v := by
  simp [value, h]

theorem WellFormed.lineValue_connection (hd : d.WellFormed) (hm : .connection ∈ d.items.map Prod.fst) :
    lineValue (d.line .connection) = .ok (some (.address d.addr)) := by
  refine lineValue_address (hd.chars hm) rfl (matchConnection_ip4 hd.addr_ne_nil hd.addr_chars ?_)
  intro c hc
  rcases hd.suffix with hs | ⟨ttl, hs, -⟩
  · simp [hs] at hc
  · rw [hs, List.head?_cons] at hc
    cases hc
    decide

theorem WellFormed.lineValue_fluteTsi (hd : d.WellFormed) (hm : .fluteTsi ∈ d.items.map Prod.fst) :
    lineValue (d.line .fluteTsi) = .ok (some (.tsi d.tsi)) :=
  lineValue_tsi hd.number_ne_nil hd.number hd.tsi (hd.chars hm)

theorem WellFormed.lineValue_media (hd : d.WellFormed) :
    ∃ port type, lineValue (d.line .media) = .ok (some (.media port type)) ∧
      ((port, type) = (d.port, fluteUdp) ↔ d.formats.length = 1) := by
  have hproto : Token fluteUdp := token_fluteUdp
  by_cases hlen : 2 ≤ d.formats.length
  · obtain ⟨x, y, hblank, hvalue⟩ := lineValue_applicationLine_of_length hd.port hproto hd.formats hlen
    refine ⟨x, y, hvalue, ⟨fun he => ?_, fun hone => by omega⟩⟩
    rw [(Prod.mk.inj he).1] at hblank
    exact absurd hblank hd.port.blank
  · have hone : d.formats.length = 1 := by
      have hpos := List.length_pos_of_ne_nil hd.formats_ne_nil
      omega
    obtain ⟨format, hformat⟩ := List.length_eq_one_iff.mp hone
    have hvalue := lineValue_applicationLine hd.port hproto (hd.formats format (by simp [hformat]))
    refine ⟨d.port, fluteUdp, ?_, ⟨fun _ => hone, fun _ => rfl⟩⟩
    rw [line, hformat, hvalue]

theorem WellFormed.sdpValues_text (hd : d.WellFormed) :
    sdpValues d.text = (d.items.filterMap d.value, none) := by
  have hmem : ∀ x ∈ d.items, x.1 ∈ d.items.map Prod.fst := fun x hx => List.mem_map_of_mem hx
  have hnewline : ∀ l ∈ d.lines, '\n' ∉ l.1 := by
    intro l hl hn
    obtain ⟨x, hx, rfl⟩ := List.mem_map.mp hl
    exact absurd (hd.chars (hmem x hx) _ hn) (by decide)
  have hread : ∀ x ∈ d.items, ∃ v, lineValue (d.line x.1 ++ if x.2 then ['\r'] else []) = .ok v := by
    rintro ⟨item, crlf⟩ hx
    have hm := hmem _ hx
    cases crlf with
    | true => exact ⟨none, lineValue_cr _⟩
    | false =>
      simp only [Bool.false_eq_true, if_false, List.append_nil]
      cases item with
      | connection => exact ⟨_, hd.lineValue_connection hm⟩
      | media =>
        obtain ⟨port, type, hvalue, -⟩ := hd.lineValue_media
        exact ⟨_, hvalue⟩
      | fluteTsi => exact ⟨_, hd.lineValue_fluteTsi hm⟩
      | other line =>
        rcases (hd.others line hm).lineValue_cases hd.port with ⟨addr, -, -, h, -⟩ | ⟨port, type, -, -, h, -⟩ |
          ⟨-, -, h⟩
        · exact ⟨_, h⟩
        · exact ⟨_, h⟩
        · exact ⟨_, h⟩
  rw [sdpValues, text, Text.getlines_document hnewline, lines, List.map_map, linesValues_eq]
  · rw [List.filterMap_map]
    refine congrArg (·, none) (List.filterMap_congr (fun x hx => ?_))
    obtain ⟨v, hv⟩ := hread x hx
    simp only [Function.comp_apply, value, hv, Except.toOption, Option.join_some]
  · intro line hline
    obtain ⟨x, hx, rfl⟩ := List.mem_map.mp hline
    exact hread x hx

theorem WellFormed.notMem_of_split (hd : d.WellFormed) {item : SdpItem}
    (honce : item ∈ [.connection, .media, .fluteTsi]) {pre post : List (SdpItem × Bool)} {crlf : Bool}
    (he : d.items = pre ++ (item, crlf) :: post) (crlf' : Bool) : (item, crlf') ∉ post := by
  intro hm
  have hcount := hd.once item honce
  have hpos : 0 < (post.map Prod.fst).count item := List.count_pos_iff.mpr (List.mem_map_of_mem hm)
  rw [he, List.map_append, List.map_cons, List.count_append, List.count_cons_self] at hcount
  omega

/-- What is set last comes from the item itself exactly when it stands last. -/
theorem WellFormed.getLast?_eq_some_iff (hd : d.WellFormed) {β : Type} {f : SdpItem × Bool → Option β}
    {b : β} {item : SdpItem} {Sets : Str → Prop} (honce : item ∈ [.connection, .media, .fluteTsi])
    (hitem : f (item, false) = some b)
    (hother : ∀ line, (.other line, false) ∈ d.items →
      f (.other line, false) ≠ some b ∧ ((f (.other line, false)).isSome ↔ Sets line))
    (hrest : ∀ x ∈ d.items, x ≠ (item, false) → (∀ line, x ≠ (.other line, false)) → f x = none) :
    (d.items.filterMap f).getLast? = some b ↔ d.StandsLast item Sets := by
  rw [List.getLast?_filterMap, List.findSome?_eq_some_iff]
  constructor
  · rintro ⟨post, x, pre, he, hx, hnone⟩
    have hitems : d.items = pre.reverse ++ x :: post.reverse := by
      simpa using congrArg List.reverse he
    have hmem : ∀ y ∈ x :: post.reverse, y ∈ d.items := fun y hy => by
      rw [hitems]
      exact List.mem_append_right _ hy
    have hitem : x = (item, false) := by
      by_contra hne
      by_cases hline : ∃ line, x = (.other line, false)
      · obtain ⟨line, rfl⟩ := hline
        exact (hother line (hmem _ List.mem_cons_self)).1 hx
      · rw [hrest x (hmem x List.mem_cons_self) hne (not_exists.mp hline)] at hx
        cases hx
    subst hitem
    refine ⟨pre.reverse, post.reverse, hitems, fun line hl hs => ?_⟩
    have hsome := (hother line (hmem _ (List.mem_cons_of_mem _ hl))).2.mpr hs
    rw [hnone _ (List.mem_reverse.mp hl)] at hsome
    cases hsome
  · rintro ⟨pre, post, he, hpost⟩
    refine ⟨post.reverse, (item, false), pre.reverse, by simp [he], hitem, fun x hx => ?_⟩
    have hx := List.mem_reverse.mp hx
    have hmem : x ∈ d.items := by
      rw [he]
      exact List.mem_append_right _ (List.mem_cons_of_mem _ hx)
    by_cases hline : ∃ line, x = (.other line, false)
    · obtain ⟨line, rfl⟩ := hline
      have hnot := (hother line hmem).2.not.mpr (hpost line hx)
      exact Option.not_isSome_iff_eq_none.mp hnot
    · refine hrest x hmem (fun hxe => ?_) (not_exists.mp hline)
      exact hd.notMem_of_split honce he false (hxe ▸ hx)

theorem WellFormed.value_other (hd : d.WellFormed) {line : Str} (hm : (.other line, false) ∈ d.items) :
    (∃ addr, SetsAddress line ∧ ¬ SetsMedia line ∧ d.value (.other line, false) = some (.address addr) ∧
      addr ≠ d.addr) ∨
    (∃ port type, SetsMedia line ∧ ¬ SetsAddress line ∧
      d.value (.other line, false) = some (.media port type) ∧ (port, type) ≠ (d.port, fluteUdp)) ∨
    (¬ SetsAddress line ∧ ¬ SetsMedia line ∧ d.value (.other line, false) = none) := by
  have hother := hd.others line (List.mem_map_of_mem hm)
  rcases hother.lineValue_cases hd.port with ⟨addr, h1, h2, h, h3⟩ | ⟨port, type, h1, h2, h, h3⟩ | ⟨h1, h2, h⟩
  · exact .inl ⟨addr, h1, h2, value_of_lineValue h, h3⟩
  · exact .inr (.inl ⟨port, type, h1, h2, value_of_lineValue h, h3⟩)
  · exact .inr (.inr ⟨h1, h2, value_of_lineValue h⟩)

theorem WellFormed.mem_items (hd : d.WellFormed) {item : SdpItem}
    (honce : item ∈ [.connection, .media, .fluteTsi]) : item ∈ d.items.map Prod.fst := by
  refine List.count_pos_iff.mp ?_
  rw [hd.once item honce]
  exact Nat.one_pos

theorem WellFormed.value_connection (hd : d.WellFormed) :
    d.value (.connection, false) = some (.address d.addr) :=
  value_of_lineValue (hd.lineValue_connection (hd.mem_items (by simp)))

theorem WellFormed.value_fluteTsi (hd : d.WellFormed) :
    d.value (.fluteTsi, false) = some (.tsi d.tsi) :=
  value_of_lineValue (hd.lineValue_fluteTsi (hd.mem_items (by simp)))

/-- What one kind of value is read from: the item that sets it, and other lines. -/
theorem WellFormed.bind_value_eq_none (hd : d.WellFormed) {β : Type} {g : SdpValue → Option β}
    (item : SdpItem) (haddress : item ≠ .connection → g (.address d.addr) = none)
    (hmedia : item ≠ .media → ∀ port type, g (.media port type) = none)
    (htsi : item ≠ .fluteTsi → g (.tsi d.tsi) = none) :
    ∀ x ∈ d.items, x ≠ (item, false) → (∀ line, x ≠ (.other line, false)) → (d.value x).bind g = none := by
  rintro ⟨item', crlf⟩ - hne hline
  cases crlf with
  | true => rw [value_crlf, Option.bind_none]
  | false =>
    have hitem : item ≠ item' := fun he => hne (by rw [he])
    cases item' with
    | connection => rw [hd.value_connection, Option.bind_some, haddress hitem]
    | media =>
      obtain ⟨port, type, hvalue, -⟩ := hd.lineValue_media
      rw [value_of_lineValue hvalue, Option.bind_some, hmedia hitem]
    | fluteTsi => rw [hd.value_fluteTsi, Option.bind_some, htsi hitem]
    | other line => exact absurd rfl (hline line)

theorem WellFormed.addressOf_eq_some_iff (hd : d.WellFormed) :
    addressOf (sdpValues d.text).1 = some d.addr ↔ d.StandsLast .connection SetsAddress := by
  have hrest := hd.bind_value_eq_none (g := SdpValue.address?) .connection
    (fun h => absurd rfl h) (fun _ _ _ => rfl) (fun _ => rfl)
  rw [hd.sdpValues_text, addressOf, List.filterMap_filterMap]
  refine hd.getLast?_eq_some_iff (by simp) (by rw [hd.value_connection]; rfl) (fun line hm => ?_) hrest
  rcases hd.value_other hm with ⟨addr, h1, -, h, h3⟩ | ⟨p, t, -, h1, h, -⟩ | ⟨h1, -, h⟩
  · simp [h, SdpValue.address?, h1, h3]
  · simp [h, SdpValue.address?, h1]
  · simp [h, h1]

theorem WellFormed.mediaOf_eq_some_iff (hd : d.WellFormed) :
    mediaOf (sdpValues d.text).1 = some (d.port, fluteUdp) ↔
      d.StandsLast .media SetsMedia ∧ d.formats.length = 1 := by
  obtain ⟨port, type, hmedia, hone⟩ := hd.lineValue_media
  have hvalue := value_of_lineValue hmedia
  have hother : ∀ line, (.other line, false) ∈ d.items →
      (d.value (.other line, false)).bind SdpValue.media? ≠ some (d.port, fluteUdp) ∧
        (((d.value (.other line, false)).bind SdpValue.media?).isSome ↔ SetsMedia line) := by
    intro line hm
    rcases hd.value_other hm with ⟨addr, -, h1, h, -⟩ | ⟨p, t, h1, -, h, h3⟩ | ⟨-, h1, h⟩
    · simp [h, SdpValue.media?, h1]
    · rw [h, Option.bind_some, SdpValue.media?]
      exact ⟨fun he => h3 (Option.some.inj he), by simp [h1]⟩
    · simp [h, h1]
  have hrest := hd.bind_value_eq_none (g := SdpValue.media?) .media
    (fun _ => rfl) (fun h => absurd rfl h) (fun _ => rfl)
  rw [hd.sdpValues_text, mediaOf, List.filterMap_filterMap]
  by_cases hlen : d.formats.length = 1
  · have hpair := hone.mpr hlen
    rw [hd.getLast?_eq_some_iff (by simp) (by rw [hvalue, Option.bind_some, SdpValue.media?, hpair])
      hother hrest]
    simp [hlen]
  · refine iff_of_false (fun hlast => ?_) (fun h => hlen h.2)
    obtain ⟨x, hx, he⟩ := List.mem_filterMap.mp (List.mem_of_getLast? hlast)
    by_cases hmediaItem : x = (.media, false)
    · rw [hmediaItem, hvalue, Option.bind_some, SdpValue.media?] at he
      exact hlen (hone.mp (Option.some.inj he))
    by_cases hline : ∃ line, x = (.other line, false)
    · obtain ⟨line, rfl⟩ := hline
      exact (hother line hx).1 he
    · rw [hrest x hx hmediaItem (not_exists.mp hline)] at he
      cases he

theorem WellFormed.tsiOf_eq (hd : d.WellFormed) :
    tsiOf (sdpValues d.text).1 = if (.fluteTsi, false) ∈ d.items then some d.tsi else none := by
  have hrest := hd.bind_value_eq_none (g := SdpValue.tsi?) .fluteTsi
    (fun _ => rfl) (fun _ _ _ => rfl) (fun h => absurd rfl h)
  have hother : ∀ line, (.other line, false) ∈ d.items →
      (d.value (.other line, false)).bind SdpValue.tsi? = none := by
    intro line hm
    rcases hd.value_other hm with ⟨addr, -, -, h, -⟩ | ⟨p, t, -, -, h, -⟩ | ⟨-, -, h⟩
    all_goals simp [h, SdpValue.tsi?]
  rw [hd.sdpValues_text, tsiOf, List.filterMap_filterMap]
  split_ifs with hm
  · obtain ⟨pre, post, he⟩ := List.append_of_mem hm
    have hlast : (d.items.filterMap fun x => (d.value x).bind SdpValue.tsi?).getLast? = some d.tsi ↔
        d.StandsLast .fluteTsi (fun _ => False) :=
      hd.getLast?_eq_some_iff (by simp) (by rw [hd.value_fluteTsi]; rfl)
        (fun line hl => by simp [hother line hl]) hrest
    exact hlast.mpr ⟨pre, post, he, by simp⟩
  · rw [List.getLast?_eq_none_iff, List.filterMap_eq_nil_iff]
    intro x hx
    by_cases hline : ∃ line, x = (.other line, false)
    · obtain ⟨line, rfl⟩ := hline
      exact hother line hx
    · exact hrest x hx (fun he => hm (he ▸ hx)) (not_exists.mp hline)

variable {D : Type}

/-- The call succeeds, and the stream has what the three lines announce. -/
structure Accepted (s : ContentStream D) (d : SdpDocument) : Prop where
  returned : (s.configure5gbcDeliveryFromSdp d.text).2 = .ok true
  streamMcastAddr : (s.applySdp d.text).streamMcastAddr = d.addr
  streamMcastPort : (s.applySdp d.text).streamMcastPort = d.port
  streamType : (s.applySdp d.text).streamType = fluteUdp
  streamFluteTsi : (s.applySdp d.text).streamFluteTsi = d.tsi

/-- A description is accepted as it is meant exactly when every line that
counts ends in LF and stands last, and there is one format. -/
theorem accepted_document_iff {s : ContentStream D} (hs : s.Fresh) (hd : d.WellFormed) :
    Accepted s d ↔ d.Readable := by
  have happly := (applySdp_eq s d.text).trans (foldl_set _ s)
  have haddr : (s.applySdp d.text).streamMcastAddr = d.addr ↔ addressOf (sdpValues d.text).1 = some d.addr := by
    rw [happly]
    cases addressOf (sdpValues d.text).1 with
    | some addr => simp
    | none => simpa [hs.streamMcastAddr] using hd.addr_ne_nil.symm
  have hmedia : (s.applySdp d.text).streamMcastPort = d.port ∧ (s.applySdp d.text).streamType = fluteUdp ↔
      mediaOf (sdpValues d.text).1 = some (d.port, fluteUdp) := by
    rw [happly]
    cases mediaOf (sdpValues d.text).1 with
    | some m => simp [Prod.ext_iff]
    | none => simp [hs.streamMcastPort, hd.port.ne_nil.symm]
  have htsi : (s.applySdp d.text).streamFluteTsi = d.tsi ↔ (.fluteTsi, false) ∈ d.items ∨ d.tsi = 0 := by
    rw [happly]
    dsimp only
    rw [hd.tsiOf_eq]
    by_cases hm : (.fluteTsi, false) ∈ d.items
    · simp [hm]
    · simp [hm, hs.streamFluteTsi, eq_comm]
  rw [hd.addressOf_eq_some_iff] at haddr
  rw [hd.mediaOf_eq_some_iff] at hmedia
  constructor
  · intro h
    obtain ⟨hlast, hone⟩ := hmedia.mp ⟨h.streamMcastPort, h.streamType⟩
    exact ⟨haddr.mp h.streamMcastAddr, hlast, hone, htsi.mp h.streamFluteTsi⟩
  · intro h
    obtain ⟨hport, htype⟩ := hmedia.mpr ⟨h.media, h.formats⟩
    have haddr := haddr.mpr h.connection
    refine ⟨?_, haddr, hport, htype, htsi.mpr h.fluteTsi⟩
    have hnone : s.streamType ≠ [] := by
      rw [hs.streamType]
      decide
    rw [accepted_iff hnone, haddr, hport]
    exact ⟨congrArg Prod.snd hd.sdpValues_text, hd.addr_ne_nil, hd.port.ne_nil⟩

section Example

/-- One line of each kind behind a version line, all with the same line ending. -/
def plainDocument (formats : List Str) (crlf : Bool) : SdpDocument where
  addr := "239.1.1.1".toList
  suffix := "/16".toList
  port := "5000".toList
  formats := formats
  number := "7".toList
  items := [.other "v=0".toList, .fluteTsi, .connection, .media].map (·, crlf)

theorem wellFormed_plainDocument {formats : List Str} (hne : formats ≠ [])
    (hformats : ∀ format ∈ formats, Token format) (crlf : Bool) : (plainDocument formats crlf).WellFormed := by
  have hitems : (plainDocument formats crlf).items.map Prod.fst =
      [.other "v=0".toList, .fluteTsi, .connection, .media] := rfl
  have hother : (plainDocument formats crlf).Other "v=0".toList := by
    refine ⟨lineChars_of_all (by decide), fun version r h => ?_, fun ⟨r, h⟩ => ?_, fun r h => ?_⟩
    all_goals exact absurd (List.cons.inj h).1 (by decide)
  have hport : Token "5000".toList := ⟨by decide, by decide, lineChars_of_all (by decide)⟩
  refine ⟨?_, ?_, .inr ⟨"16".toList, rfl, lineChars_of_all (by decide)⟩, hport, hne, hformats, ?_, ?_, ?_, ?_, ?_⟩
  · exact (show "239.1.1.1".toList ≠ [] by decide)
  · exact List.all_eq_true.mp (show "239.1.1.1".toList.all isAddressChar = true by decide)
  · exact (show "7".toList ≠ [] by decide)
  · exact List.all_eq_true.mp (show "7".toList.all Char.isDigit = true by decide)
  · exact (show Nat.ofDigitChars 10 "7".toList 0 < 2 ^ 64 by decide)
  · rw [hitems]
    decide
  · intro line hline
    rw [hitems] at hline
    simp only [List.mem_cons, SdpItem.other.injEq, reduceCtorEq, List.not_mem_nil, or_false] at hline
    rw [hline]
    exact hother

theorem token_singleton {c : Char} (hblank : c ≠ ' ') (hline : isLineTerminator c = false) : Token [c] :=
  ⟨by simp, by simp [hblank.symm], by simp [hline]⟩

/-- Line ends as SDP prescribes them, and a second format. -/
theorem crlf_and_second_format_rejected :
    (newBasicStream.Fresh ∧ (plainDocument [['0']] true).WellFormed ∧
      ¬ Accepted newBasicStream (plainDocument [['0']] true)) ∧
    (plainDocument [['0'], ['1']] false).WellFormed ∧
      ¬ Accepted newBasicStream (plainDocument [['0'], ['1']] false) := by
  have hzero : Token ['0'] := token_singleton (by decide) (by decide)
  have hone : Token ['1'] := token_singleton (by decide) (by decide)
  refine ⟨⟨fresh_newBasicStream, wellFormed_plainDocument (by simp) (by simp [hzero]) true, fun h => ?_⟩,
    wellFormed_plainDocument (by simp) (by simp [hzero, hone]) false, fun h => ?_⟩
  · have haddr : (newBasicStream.applySdp (plainDocument [['0']] true).text).streamMcastAddr = [] := by
      decide +kernel
    exact absurd (haddr.symm.trans h.streamMcastAddr) (by decide)
  · have hport : (newBasicStream.applySdp
        (plainDocument [['0'], ['1']] false).text).streamMcastPort = "5000 FLUTE/UDP".toList := by
      decide +kernel
    exact absurd (hport.symm.trans h.streamMcastPort) (by decide)

theorem lf_document_accepted :
    (plainDocument [['0']] false).formats.length = 1 ∧
    (Accepted newBasicStream (plainDocument [['0']] false) ↔ (plainDocument [['0']] false).Readable) :=
  ⟨rfl, accepted_document_iff fresh_newBasicStream
    (wellFormed_plainDocument (by simp)
      (by simpa using token_singleton (c := '0') (by decide) (by decide)) false)⟩

end Example

end SdpDocument

end ContentStream

end MbmsMiddleware
