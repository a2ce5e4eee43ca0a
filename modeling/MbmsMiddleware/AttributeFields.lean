import MbmsMiddleware.HlsAttributes

/-! Attribute lists as the automaton of `parse_parameters` cuts them, from their
start or from behind a colon in one of their values. -/

namespace MbmsMiddleware

namespace HlsPrimaryPlaylist

/-- A text cut at the commas that stand outside quotes. -/
def cutFields (quoted : Bool) : Str → List Str
  | [] => [[]]
  | c :: s =>
    if c = ',' ∧ quoted = false then [] :: cutFields quoted s
    else
      let fields := cutFields (if c = '"' then !quoted else quoted) s
      (c :: fields.headD []) :: fields.tail

/-- The name and the value of a field: what stands before and behind its first
equals sign, without quotes and further equals signs. -/
def fieldOf (field : Str) : Str × Str :=
  ((field.takeWhile (· ≠ '=')).filter (· ≠ '"'),
    (field.dropWhile (· ≠ '=')).filter fun c => c ≠ '"' ∧ c ≠ '=')

theorem cutFields_ne_nil (quoted : Bool) (s : Str) : cutFields quoted s ≠ [] := by
  cases s with
  | nil => simp [cutFields]
  | cons c s =>
    rw [cutFields]
    split_ifs <;> simp

theorem cutFields_of_notMem {s : Str} (hcomma : ',' ∉ s) (quoted : Bool) : cutFields quoted s = [s] := by
  induction s generalizing quoted with
  | nil => rfl
  | cons c s ih =>
    obtain ⟨hc, hs⟩ := List.ne_and_not_mem_of_not_mem_cons hcomma
    rw [cutFields, if_neg fun h => hc h.1.symm, ih hs]
    rfl

/-- The field that the automaton is in, joined with what it has read of it. -/
def Parameters.join (p : Parameters) (field : Str) : Str × Str :=
  if p.inKey then (p.key ++ (fieldOf field).1, p.value ++ (fieldOf field).2)
  else (p.key, p.value ++ field.filter fun c => c ≠ '"' ∧ c ≠ '=')

/-- The automaton reads the fields of the text. -/
theorem foldl_parseParameter (s : Str) (p : Parameters) :
    (fun q : Parameters => q.result ++ [(q.key, q.value)]) (s.foldl parseParameter p) =
      p.result ++ p.join ((cutFields p.quoted s).headD []) ::
        (cutFields p.quoted s).tail.map fieldOf := by
  induction s generalizing p with
  | nil =>
    cases hp : p.inKey <;> simp [cutFields, Parameters.join, fieldOf, hp]
  | cons c s ih =>
    rw [List.foldl_cons, ih]
    obtain ⟨quoted, inKey, key, value, result⟩ := p
    by_cases hquote : c = '"'
    · subst hquote
      cases inKey <;> simp [parseParameter, cutFields, Parameters.join, fieldOf]
    by_cases hcomma : c = ',' ∧ quoted = false
    · obtain ⟨rfl, rfl⟩ := hcomma
      obtain ⟨field, fields, hfields⟩ := List.exists_cons_of_ne_nil (cutFields_ne_nil false s)
      cases inKey <;> simp [parseParameter, cutFields, Parameters.join, fieldOf, hfields]
    by_cases hequals : c = '='
    · subst hequals
      cases inKey <;> simp [parseParameter, cutFields, Parameters.join, fieldOf]
    · cases inKey <;>
        simp [parseParameter, cutFields, Parameters.join, fieldOf, hquote, hcomma, hequals]

theorem parseParameters_eq (s : Str) : parseParameters s = (cutFields false s).map fieldOf := by
  obtain ⟨field, fields, hfields⟩ := List.exists_cons_of_ne_nil (cutFields_ne_nil false s)
  have h := foldl_parseParameter s {}
  simp only [hfields, List.headD_cons, List.tail_cons, Parameters.join, if_true, List.nil_append] at h
  rw [hfields, List.map_cons]
  exact h

theorem cutFields_append {field : Str} (hquote : '"' ∉ field) (hcomma : ',' ∉ field) (s : Str) :
    cutFields false (field ++ ',' :: s) = field :: cutFields false s := by
  induction field with
  | nil => rfl
  | cons c field ih =>
    obtain ⟨hc, hcomma⟩ := List.ne_and_not_mem_of_not_mem_cons hcomma
    obtain ⟨hq, hquote⟩ := List.ne_and_not_mem_of_not_mem_cons hquote
    rw [List.cons_append, cutFields, if_neg fun h => hc h.1.symm, if_neg (Ne.symm hq),
      ih hquote hcomma]
    rfl

/-- A field of its own before a list of attributes. -/
theorem parseParameters_field {field : Str} {rest : List Attribute} (hquote : '"' ∉ field)
    (hcomma : ',' ∉ field) (h : ∀ b ∈ rest, b.Valid) :
    parseParameters (field ++ rest.flatMap fun b => ',' :: b.text) =
      fieldOf field :: rest.map fun b => (b.name, b.readValue) := by
  cases rest with
  | nil => rw [List.flatMap_nil, List.append_nil, parseParameters_eq, cutFields_of_notMem hcomma]; rfl
  | cons b rest =>
    have htext : ((b :: rest).flatMap fun b => ',' :: b.text) = ',' :: attributeText (b :: rest) := rfl
    rw [htext, parseParameters_eq, cutFields_append hquote hcomma, List.map_cons, ← parseParameters_eq,
      parseParameters_attributeText h]

/-- The last attribute with a colon in its value, and the attributes behind it. -/
def lastColon : List Attribute → Option (Attribute × List Attribute)
  | [] => none
  | a :: rest => (lastColon rest).or (if ':' ∈ a.value then some (a, rest) else none)

theorem lastColon_eq_none {attributes : List Attribute} (h : lastColon attributes = none) :
    ∀ a ∈ attributes, ':' ∉ a.value := by
  induction attributes with
  | nil => simp
  | cons a rest ih =>
    rw [lastColon, Option.or_eq_none_iff] at h
    obtain ⟨hrest, ha⟩ := h
    intro b hb
    rcases List.mem_cons.mp hb with rfl | hb
    · exact fun hm => absurd ha (by simp [hm])
    · exact ih hrest b hb

theorem lastColon_eq_some {attributes rest : List Attribute} {a : Attribute}
    (h : lastColon attributes = some (a, rest)) :
    (∃ front, attributes = front ++ a :: rest) ∧ ':' ∈ a.value ∧ ∀ b ∈ rest, ':' ∉ b.value := by
  induction attributes with
  | nil => cases h
  | cons b attributes ih =>
    rw [lastColon, Option.or_eq_some_iff] at h
    rcases h with h | ⟨hnone, h⟩
    · obtain ⟨⟨front, hfront⟩, hcolon⟩ := ih h
      exact ⟨⟨b :: front, by rw [hfront, List.cons_append]⟩, hcolon⟩
    · split_ifs at h with hb
      cases h
      exact ⟨⟨[], rfl⟩, hb, lastColon_eq_none hnone⟩

theorem attributeText_append (front : List Attribute) (a : Attribute) (rest : List Attribute) :
    ∃ pre, attributeText (front ++ a :: rest) = pre ++ a.text ++ rest.flatMap fun b => ',' :: b.text := by
  cases front with
  | nil => exact ⟨[], rfl⟩
  | cons b front =>
    refine ⟨b.text ++ (front.flatMap fun b => ',' :: b.text) ++ [','], ?_⟩
    simp [attributeText]

/-- A field of this name stands in the text. -/
def Imitates (name text : Str) : Prop := ∃ field ∈ cutFields false text, (fieldOf field).1 = name

theorem cutFields_true_append {s : Str} (hquote : '"' ∉ s) (t : Str) :
    cutFields true (s ++ t) = (s ++ (cutFields true t).headD []) :: (cutFields true t).tail := by
  induction s with
  | nil =>
    obtain ⟨field, fields, hfields⟩ := List.exists_cons_of_ne_nil (cutFields_ne_nil true t)
    simp [hfields]
  | cons c s ih =>
    obtain ⟨hq, hquote⟩ := List.ne_and_not_mem_of_not_mem_cons hquote
    rw [List.cons_append, cutFields, if_neg (by simp), if_neg (Ne.symm hq), ih hquote]
    rfl

/-- The last field of a text goes on in what stands behind it. -/
theorem cutFields_false_append {s : Str} (hquote : '"' ∉ s) :
    ∃ fields last, cutFields false s = fields ++ [last] ∧ ∀ t, cutFields false (s ++ t) =
      fields ++ (last ++ (cutFields false t).headD []) :: (cutFields false t).tail := by
  induction s with
  | nil =>
    refine ⟨[], [], rfl, fun t => ?_⟩
    obtain ⟨field, fields, hfields⟩ := List.exists_cons_of_ne_nil (cutFields_ne_nil false t)
    simp [hfields]
  | cons c s ih =>
    obtain ⟨hq, hquote⟩ := List.ne_and_not_mem_of_not_mem_cons hquote
    obtain ⟨fields, last, hs, happend⟩ := ih hquote
    by_cases hc : c = ','
    · subst hc
      have hcut : ∀ t, cutFields false (',' :: t) = [] :: cutFields false t := fun t => rfl
      refine ⟨[] :: fields, last, by rw [hcut, hs, List.cons_append], fun t => ?_⟩
      rw [List.cons_append, hcut, happend, List.cons_append]
    · have hcut : ∀ t, cutFields false (c :: t) =
          (c :: (cutFields false t).headD []) :: (cutFields false t).tail := by
        intro t
        rw [cutFields, if_neg fun h => hc h.1, if_neg (Ne.symm hq)]
      cases fields with
      | nil =>
        refine ⟨[], c :: last, by rw [hcut, hs]; rfl, fun t => ?_⟩
        rw [List.cons_append, hcut, happend]
        rfl
      | cons field fields =>
        refine ⟨(c :: field) :: fields, last, by rw [hcut, hs]; rfl, fun t => ?_⟩
        rw [List.cons_append, hcut, happend]
        rfl

/-- Where a quote follows a field and then nothing or a comma, the field keeps
its name or its name has a comma. -/
theorem name_append (field : Str) {t : Str} (ht : t = [] ∨ ∃ u, t = ',' :: u) :
    (fieldOf (field ++ '"' :: t)).1 = (fieldOf field).1 ∨ ',' ∈ (fieldOf (field ++ '"' :: t)).1 := by
  unfold fieldOf
  rw [List.takeWhile_append]
  split_ifs with hlength
  · have hall : field.takeWhile (· ≠ '=') = field :=
      (List.takeWhile_prefix _).eq_of_length hlength
    rcases ht with rfl | ⟨u, rfl⟩
    · left
      rw [hall]
      simp
    · right
      simp
  · exact .inl rfl

theorem head_cutFields (rest : List Attribute) :
    (cutFields true (rest.flatMap fun b => ',' :: b.text)).headD [] = [] ∨
      ∃ u, (cutFields true (rest.flatMap fun b => ',' :: b.text)).headD [] = ',' :: u := by
  cases rest with
  | nil => exact .inl rfl
  | cons b rest => exact .inr ⟨_, rfl⟩

/-- The fields that begin behind the start of a quoted text, where quotes count
the other way round: their names have a comma, or they begin in quoted text. -/
theorem name_of_mem_cutFields {text : Str} (hquote : '"' ∉ text) {rest : List Attribute} {field : Str}
    (hfield : field ∈ cutFields false (text ++ '"' :: rest.flatMap fun b => ',' :: b.text)) :
    ',' ∈ (fieldOf field).1 ∨ Imitates (fieldOf field).1 text ∨
      field ∈ (cutFields true (rest.flatMap fun b => ',' :: b.text)).tail := by
  obtain ⟨fields, last, htext, happend⟩ := cutFields_false_append hquote
  have hcut : cutFields false ('"' :: rest.flatMap fun b => ',' :: b.text) =
      ('"' :: (cutFields true (rest.flatMap fun b => ',' :: b.text)).headD []) ::
        (cutFields true (rest.flatMap fun b => ',' :: b.text)).tail := rfl
  rw [happend, hcut, List.mem_append, List.mem_cons, List.headD_cons, List.tail_cons] at hfield
  rcases hfield with hfield | rfl | hfield
  · exact .inr (.inl ⟨field, by simp [htext, hfield], rfl⟩)
  · rcases name_append last (head_cutFields rest) with hname | hname
    · exact .inr (.inl ⟨last, by simp [htext], hname.symm⟩)
    · exact .inl hname
  · exact .inr (.inr hfield)

theorem name_of_mem_tail {rest : List Attribute} (h : ∀ b ∈ rest, b.Valid) {field : Str}
    (hfield : field ∈ (cutFields true (rest.flatMap fun b => ',' :: b.text)).tail) :
    ',' ∈ (fieldOf field).1 ∨ ∃ b ∈ rest, b.quoted = true ∧ Imitates (fieldOf field).1 b.value := by
  induction rest with
  | nil => cases hfield
  | cons b rest ih =>
    have hb := h b List.mem_cons_self
    have hname : '"' ∉ ',' :: b.name ++ ['='] := by
      have hn : '"' ∉ b.name := fun hm => (hb.name _ hm).1 rfl
      simp [hn]
    have hrest : field ∈ (cutFields true (rest.flatMap fun b => ',' :: b.text)).tail →
        ',' ∈ (fieldOf field).1 ∨
          ∃ b' ∈ b :: rest, b'.quoted = true ∧ Imitates (fieldOf field).1 b'.value := by
      intro hm
      rcases ih (fun b' hb' => h b' (List.mem_cons_of_mem b hb')) hm with hcomma | ⟨b', hb', himitates⟩
      · exact .inl hcomma
      · exact .inr ⟨b', List.mem_cons_of_mem b hb', himitates⟩
    cases hq : b.quoted with
    | false =>
      have htext : ((b :: rest).flatMap fun b => ',' :: b.text) =
          (',' :: b.name ++ ['='] ++ b.value) ++ rest.flatMap fun b => ',' :: b.text := by
        simp [Attribute.text, hq]
      have hquote : '"' ∉ ',' :: b.name ++ ['='] ++ b.value := by
        rw [List.mem_append, not_or]
        exact ⟨hname, hb.noQuote⟩
      rw [htext, cutFields_true_append hquote] at hfield
      exact hrest hfield
    | true =>
      have htext : ((b :: rest).flatMap fun b => ',' :: b.text) =
          (',' :: b.name ++ ['=']) ++ '"' :: (b.value ++ '"' :: rest.flatMap fun b => ',' :: b.text) := by
        simp [Attribute.text, hq]
      have hcut : cutFields true ('"' :: (b.value ++ '"' :: rest.flatMap fun b => ',' :: b.text)) =
          ('"' :: (cutFields false (b.value ++ '"' :: rest.flatMap fun b => ',' :: b.text)).headD []) ::
            (cutFields false (b.value ++ '"' :: rest.flatMap fun b => ',' :: b.text)).tail := rfl
      rw [htext, cutFields_true_append hname, hcut, List.tail_cons] at hfield
      rcases name_of_mem_cutFields hb.noQuote (List.mem_of_mem_tail hfield) with hcomma | himitates | hm
      · exact .inl hcomma
      · exact .inr ⟨b, List.mem_cons_self, hq, himitates⟩
      · exact hrest hm

end HlsPrimaryPlaylist

end MbmsMiddleware
