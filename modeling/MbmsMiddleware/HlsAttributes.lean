import MbmsMiddleware.HlsPrimaryPlaylist

/-! Attribute lists as they stand in a playlist, and what the character
automaton of `parse_parameters` reads from them; the steps of the parsing loop
for the lines of a primary playlist. -/

namespace MbmsMiddleware

namespace HlsPrimaryPlaylist

/-- `NAME=value` or `NAME="value"`. -/
structure Attribute where
  name : Str
  value : Str
  quoted : Bool := false
  deriving DecidableEq, Repr

namespace Attribute

def text (a : Attribute) : Str :=
  a.name ++ '=' :: if a.quoted then '"' :: a.value ++ ['"'] else a.value

/-- A quoted value may be anything but a quote. -/
structure Valid (a : Attribute) : Prop where
  name : ∀ c ∈ a.name, c ≠ '"' ∧ c ≠ ',' ∧ c ≠ '='
  noQuote : '"' ∉ a.value
  noComma : a.quoted = false → ',' ∉ a.value

/-- What is read of the value: the automaton skips every equals sign. -/
def readValue (a : Attribute) : Str := a.value.filter (· ≠ '=')

theorem readValue_of_notMem {a : Attribute} (h : '=' ∉ a.value) : a.readValue = a.value := by
  refine List.filter_eq_self.mpr (fun c hc => ?_)
  simp only [ne_eq, decide_not, Bool.not_eq_eq_eq_not, Bool.not_true, decide_eq_false_iff_not]
  rintro rfl
  exact h hc

theorem readValue_eq_iff {a : Attribute} : a.readValue = a.value ↔ '=' ∉ a.value := by
  refine ⟨fun h hm => ?_, readValue_of_notMem⟩
  rw [← h] at hm
  simpa using List.of_mem_filter hm

end Attribute

def attributeText : List Attribute → Str
  | [] => []
  | a :: rest => a.text ++ rest.flatMap fun b => ',' :: b.text

theorem foldl_key {s : Str} (h : ∀ c ∈ s, c ≠ '"' ∧ c ≠ ',' ∧ c ≠ '=') {p : Parameters}
    (hp : p.inKey = true) :
    s.foldl parseParameter p = { p with key := p.key ++ s } := by
  induction s generalizing p with
  | nil => simp
  | cons c s ih =>
    obtain ⟨h1, h2, h3⟩ := h c List.mem_cons_self
    have hc : parseParameter p c = { p with key := p.key ++ [c] } := by
      simp [parseParameter, h1, h2, h3, hp]
    have hrest := ih (fun d hd => h d (List.mem_cons_of_mem _ hd)) (p := { p with key := p.key ++ [c] }) hp
    rw [List.foldl_cons, hc, hrest]
    simp

theorem foldl_value {s : Str} (hquote : '"' ∉ s) {p : Parameters} (hcomma : p.quoted = false → ',' ∉ s)
    (hp : p.inKey = false) :
    s.foldl parseParameter p = { p with value := p.value ++ s.filter (· ≠ '=') } := by
  induction s generalizing p with
  | nil => simp
  | cons c s ih =>
    have h1 : c ≠ '"' := fun h => hquote (by simp [h])
    have h2 : ¬ (c = ',' ∧ p.quoted = false) := fun h => hcomma h.2 (by simp [h.1])
    have hquote' : '"' ∉ s := fun h => hquote (by simp [h])
    by_cases h3 : c = '='
    · have hc : parseParameter p c = p := by
        obtain ⟨quoted, inKey, key, value, result⟩ := p
        dsimp only at hp
        subst hp h3
        simp [parseParameter]
      rw [List.foldl_cons, hc, ih hquote' (fun h hm => hcomma h (by simp [hm])) hp]
      simp [h3]
    · have hc : parseParameter p c = { p with value := p.value ++ [c] } := by
        simp [parseParameter, h1, h2, h3, hp]
      have hrest := ih hquote' (p := { p with value := p.value ++ [c] })
        (fun h hm => hcomma h (by simp [hm])) hp
      rw [List.foldl_cons, hc, hrest]
      simp [h3]

theorem foldl_attribute {a : Attribute} (ha : a.Valid) (result : List (Str × Str)) :
    a.text.foldl parseParameter { result := result } =
      { inKey := false, key := a.name, value := a.readValue, result := result } := by
  have hname : a.name.foldl parseParameter { result := result } =
      { key := a.name, result := result } := foldl_key ha.name rfl
  rw [Attribute.text, List.foldl_append, hname, List.foldl_cons]
  cases hq : a.quoted with
  | false =>
    have hvalue := foldl_value ha.noQuote (p := { inKey := false, key := a.name, result := result })
      (fun _ => ha.noComma hq) rfl
    simpa [parseParameter, Attribute.readValue] using hvalue
  | true =>
    have hvalue := foldl_value ha.noQuote
      (p := { quoted := true, inKey := false, key := a.name, result := result }) (by simp) rfl
    simp only [if_true, List.cons_append, List.foldl_cons, List.foldl_append, List.foldl_nil]
    simp only [parseParameter] at hvalue ⊢
    simp [hvalue, Attribute.readValue]

theorem foldl_attributes {rest : List Attribute} (h : ∀ b ∈ rest, b.Valid) (key value : Str)
    (result : List (Str × Str)) :
    (fun p : Parameters => p.result ++ [(p.key, p.value)])
      ((rest.flatMap fun b => ',' :: b.text).foldl parseParameter
        { inKey := false, key := key, value := value, result := result }) =
      result ++ (key, value) :: rest.map fun b => (b.name, b.readValue) := by
  induction rest generalizing key value result with
  | nil => rfl
  | cons b rest ih =>
    have hcomma : parseParameter { inKey := false, key := key, value := value, result := result } ',' =
        { result := result ++ [(key, value)] } := by simp [parseParameter]
    rw [List.flatMap_cons, List.foldl_append, List.foldl_cons, hcomma,
      foldl_attribute (h b List.mem_cons_self), ih (fun b hb => h b (List.mem_cons_of_mem _ hb))]
    simp

/-- The attributes are read one by one, without their equals signs. -/
theorem parseParameters_attributeText {a : Attribute} {rest : List Attribute}
    (h : ∀ b ∈ a :: rest, b.Valid) :
    parseParameters (attributeText (a :: rest)) = (a :: rest).map fun b => (b.name, b.readValue) := by
  have hrest := foldl_attributes (fun b hb => h b (List.mem_cons_of_mem _ hb)) a.name a.readValue []
  simp only [parseParameters, attributeText, List.foldl_append,
    foldl_attribute (h a List.mem_cons_self)]
  simpa using hrest

theorem mem_attributeText {c : Char} {attributes : List Attribute} (h : c ∈ attributeText attributes) :
    c = ',' ∨ c = '=' ∨ c = '"' ∨ ∃ a ∈ attributes, c ∈ a.name ∨ c ∈ a.value := by
  have htext : ∀ a : Attribute, c ∈ a.text → c = '=' ∨ c = '"' ∨ c ∈ a.name ∨ c ∈ a.value := by
    intro a hc
    cases hq : a.quoted <;> simp [Attribute.text, hq] at hc <;> tauto
  cases attributes with
  | nil => simp [attributeText] at h
  | cons a rest =>
    rw [attributeText, List.mem_append, List.mem_flatMap] at h
    rcases h with h | ⟨b, hb, h⟩
    · rcases htext a h with h | h | h
      · exact .inr (.inl h)
      · exact .inr (.inr (.inl h))
      · exact .inr (.inr (.inr ⟨a, List.mem_cons_self, h⟩))
    · rcases List.mem_cons.mp h with h | h
      · exact .inl h
      · rcases htext b h with h | h | h
        · exact .inr (.inl h)
        · exact .inr (.inr (.inl h))
        · exact .inr (.inr (.inr ⟨b, List.mem_cons_of_mem _ hb, h⟩))

def streamInf : Str := "#EXT-X-STREAM-INF:".toList

variable {D : Type} [DoubleText D]

/-- A `#EXT-X-STREAM-INF` line: what stands behind its last colon is read. -/
theorem parseLine_streamInf (basePath : Str) (p : Parser D) (info : Str) :
    parseLine basePath p (streamInf ++ info) =
      .ok ((parseParameters (info.rtakeWhile (· ≠ ':'))).foldl setParameter p) := by
  have hversion : Text.startsWith "#EXT-X-VERSION".toList (streamInf ++ info) = false :=
    Text.startsWith_append_eq_false (by decide) (by decide) info
  have hsplit : streamInf = "#EXT-X-STREAM-INF".toList ++ [':'] := by decide
  have hline : streamInf ++ info = "#EXT-X-STREAM-INF".toList ++ ':' :: info := by
    rw [hsplit, List.append_assoc, List.singleton_append]
  have htag : Text.startsWith "#EXT-X-STREAM-INF".toList (streamInf ++ info) = true := by
    rw [hline, Text.startsWith_append]
  have hvalue : Text.afterLast ':' (streamInf ++ info) = some (info.rtakeWhile (· ≠ ':')) := by
    rw [hline, Text.afterLast_cons_append]
  simp only [parseLine, hversion, htag, hvalue, Bool.false_eq_true, if_false, if_true]
  rfl

theorem trim_streamInf (info : Str) : Text.trim (streamInf ++ info) = streamInf ++ Text.trimRight info :=
  Text.trim_append (c := '#') (d := ':') (p := "EXT-X-STREAM-INF".toList) (s := info) (by decide) (by decide)

/-- A comment, or a tag that neither announces a stream nor the version. -/
theorem parseLine_ignored (basePath : Str) (p : Parser D) {line : Str}
    (h : line = [] ∨ Text.startsWith ['#'] line = true ∧
      Text.startsWith "#EXT-X-VERSION".toList line = false ∧
      Text.startsWith "#EXT-X-STREAM-INF".toList line = false) :
    parseLine basePath p line = .ok p := by
  rcases h with rfl | ⟨hhash, hversion, htag⟩
  · rfl
  · simp only [parseLine, hversion, htag, hhash, Bool.false_eq_true, if_false, if_true]
    rfl

/-- Any other line is the URI of a stream and takes what is pending. -/
theorem parseLine_uri (basePath : Str) (p : Parser D) {line : Str} (hne : line ≠ [])
    (h : Text.startsWith ['#'] line = false) :
    parseLine basePath p line = .ok
      { playlist := { p.playlist with
          streams := p.playlist.streams ++
            [⟨basePath ++ line, p.resolution, p.codecs, p.bandwidth, p.frameRate⟩] }
        frameRate := DoubleText.ofInt 0 } := by
  have hlen : line.length > 0 := List.length_pos_iff.mpr hne
  have hversion : Text.startsWith "#EXT-X-VERSION".toList line = false := Text.startsWith_eq_false_of_head (by decide) h
  have htag : Text.startsWith "#EXT-X-STREAM-INF".toList line = false := Text.startsWith_eq_false_of_head (by decide) h
  simp only [parseLine, hversion, htag, h, hlen, Bool.false_eq_true, if_false, if_true]
  rfl

end HlsPrimaryPlaylist

end MbmsMiddleware
