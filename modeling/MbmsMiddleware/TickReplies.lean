import MbmsMiddleware.AnnouncementStart

/-! The replies of the modem to the tick: which of them the handler gets through,
and which channel it tunes in to. -/

namespace MbmsMiddleware

namespace Json

variable {D : Type}

def member? (key : Str) : Json D → Option (Json D)
  | .object fields => fields.lookup key
  | _ => none

/-- The values of an array; any other value has none. -/
def elements : Json D → List (Json D)
  | .array values => values
  | _ => []

theorem field_eq_ok_iff {key : Str} {v a : Json D} :
    v.field key = .ok a ↔ v.member? key = some a := by
  unfold field member?
  cases v with
  | object fields =>
    dsimp only
    cases h : fields.lookup key with
    | none => simp [throw, throwThe, MonadExceptOf.throw]
    | some b => simp [pure, Except.pure]
  | _ => simp [throw, throwThe, MonadExceptOf.throw]

theorem asArray_eq_ok_iff {v : Json D} {l : List (Json D)} : v.asArray = .ok l ↔ v = .array l := by
  cases v <;> simp [asArray, pure, Except.pure, throw, throwThe, MonadExceptOf.throw]

theorem asString_eq_ok_iff {v : Json D} {s : Str} : v.asString = .ok s ↔ v = .string s := by
  cases v <;> simp [asString, pure, Except.pure, throw, throwThe, MonadExceptOf.throw]

end Json

namespace Process

variable {D : Type} (cfg : ProcessConfig)

def dropSign : Str → Str
  | '-' :: r => r
  | '+' :: r => r
  | r => r

/-- `stoul` in base 16 finds a digit. -/
def BeginsHex (s : Str) : Prop :=
  (dropHexPrefix (dropSign (Text.trimLeft s))).takeWhile isHexDigit ≠ []

theorem hexDigitValue_lt {c : Char} (h : isHexDigit c = true) : hexDigitValue c < 16 := by
  unfold isHexDigit at h
  unfold hexDigitValue
  by_cases hd : c.isDigit
  · rw [if_pos hd]
    have hle : c.toNat ≤ '9'.toNat := by
      simp only [Char.isDigit, Bool.and_eq_true, decide_eq_true_eq] at hd
      exact hd.2
    have h9 : '9'.toNat - '0'.toNat < 16 := by decide
    omega
  · rw [if_neg hd]
    simp only [hd, Bool.false_or, Bool.or_eq_true, Bool.and_eq_true, decide_eq_true_eq] at h
    by_cases ha : 'a' ≤ c
    · rw [if_pos ha]
      rcases h with ⟨_, h⟩ | ⟨_, h⟩
      · have hle : c.toNat ≤ 'f'.toNat := h
        have hf : 'f'.toNat - 'a'.toNat + 10 < 16 := by decide
        omega
      · have h1 : 'a'.toNat ≤ c.toNat := ha
        have h2 : c.toNat ≤ 'F'.toNat := h
        have h3 : 'F'.toNat < 'a'.toNat := by decide
        omega
    · rw [if_neg ha]
      rcases h with ⟨h, _⟩ | ⟨_, h⟩
      · exact absurd h ha
      · have hle : c.toNat ≤ 'F'.toNat := h
        have hf : 'F'.toNat - 'A'.toNat + 10 < 16 := by decide
        omega

def hexValue (s : Str) : Nat := s.foldl (fun n c => 16 * n + hexDigitValue c) 0

theorem hexValue_lt {s : Str} (h : s.all isHexDigit = true) : hexValue s < 16 ^ s.length := by
  have hfold : ∀ (s : Str) (n : Nat), s.all isHexDigit = true →
      s.foldl (fun n c => 16 * n + hexDigitValue c) n < (n + 1) * 16 ^ s.length := by
    intro s
    induction s with
    | nil => simp
    | cons c s ih =>
      intro n hs
      rw [List.all_cons, Bool.and_eq_true] at hs
      have hc := hexDigitValue_lt hs.1
      calc List.foldl (fun n c => 16 * n + hexDigitValue c) (16 * n + hexDigitValue c) s
          < (16 * n + hexDigitValue c + 1) * 16 ^ s.length := ih _ hs.2
        _ ≤ (16 * (n + 1)) * 16 ^ s.length := Nat.mul_le_mul_right _ (by omega)
        _ = (n + 1) * 16 ^ (c :: s).length := by
          rw [List.length_cons, Nat.pow_succ, Nat.mul_comm 16, Nat.mul_assoc, Nat.mul_comm 16]
  simpa [hexValue] using hfold s 0 h

theorem length_dropHexPrefix_le (s : Str) : (dropHexPrefix s).length ≤ s.length := by
  unfold dropHexPrefix
  split
  · split
    · simp only [List.length_cons]
      omega
    · exact le_rfl
  · exact le_rfl

theorem length_dropSign_le (s : Str) : (dropSign s).length ≤ s.length := by
  unfold dropSign
  split <;> simp

theorem stoulHex_eq (s : Str) : stoulHex s =
    let digits := (dropHexPrefix (dropSign (Text.trimLeft s))).takeWhile isHexDigit
    if digits = [] then throw .invalidArgument
    else if hexValue digits ≥ 2 ^ 64 then throw .outOfRange
    else pure (if (Text.trimLeft s).head? = some '-' then (2 ^ 64 - hexValue digits) % 2 ^ 64
      else hexValue digits) := by
  have hsign : ∀ t : Str, ∃ p : Bool × Str, p = (decide (t.head? = some '-'), dropSign t) ∧
      (match t with
        | '-' :: r => (true, r)
        | '+' :: r => (false, r)
        | r => (false, r)) = p := by
    intro t
    refine ⟨_, ?_, rfl⟩
    unfold dropSign
    split
    · rfl
    · rfl
    · rename_i hminus _
      have hne : ¬ t.head? = some '-' := by
        intro h
        obtain ⟨r, rfl⟩ := List.head?_eq_some_iff.mp h
        exact hminus r rfl
      rw [decide_eq_false hne]
  obtain ⟨p, hp, h⟩ := hsign (Text.trimLeft s)
  have hread : stoulHex s =
      let digits := (dropHexPrefix p.2).takeWhile isHexDigit
      if digits = [] then throw .invalidArgument
      else if hexValue digits ≥ 2 ^ 64 then throw .outOfRange
      else pure (if p.1 then (2 ^ 64 - hexValue digits) % 2 ^ 64 else hexValue digits) := by
    unfold stoulHex
    subst h
    rfl
  rw [hread, hp]
  simp only [decide_eq_true_eq]

/-- Six characters are too few for a number out of range. -/
theorem stoulHex_ok_iff {s : Str} (h : s.length ≤ 6) :
    (∃ n, stoulHex s = .ok n) ↔ BeginsHex s := by
  rw [stoulHex_eq]
  unfold BeginsHex
  generalize hdigits : (dropHexPrefix (dropSign (Text.trimLeft s))).takeWhile isHexDigit = digits
  dsimp only
  by_cases hnil : digits = []
  · rw [if_pos hnil]
    constructor
    · rintro ⟨n, hn⟩
      cases hn
    · exact fun hne => absurd hnil hne
  · have hlen : digits.length ≤ 6 := by
      have h1 := length_dropHexPrefix_le (dropSign (Text.trimLeft s))
      have h2 := length_dropSign_le (Text.trimLeft s)
      have h3 : (Text.trimLeft s).length ≤ s.length := List.length_dropWhile_le _ _
      have h4 := (List.takeWhile_prefix (l := dropHexPrefix (dropSign (Text.trimLeft s)))
        isHexDigit).length_le
      rw [hdigits] at h4
      omega
    have hall : digits.all isHexDigit = true := by
      rw [← hdigits]
      exact List.all_takeWhile
    have hlt : hexValue digits < 2 ^ 64 :=
      calc hexValue digits < 16 ^ digits.length := hexValue_lt hall
        _ ≤ 16 ^ 6 := Nat.pow_le_pow_right (by decide) hlen
        _ < 2 ^ 64 := by decide
    rw [if_neg hnil, if_neg (by omega)]
    exact ⟨fun _ => hnil, fun _ => ⟨_, rfl⟩⟩

/-- An entry whose fields have the types that the handler reads. -/
def Interpretable (mtch : Json D) : Prop :=
  ∃ tmgi dest, mtch.member? "tmgi".toList = some (.string tmgi) ∧
    mtch.member? "dest".toList = some (.string dest) ∧ BeginsHex (tmgi.take 6)

def Readable (mchs : Json D) : Prop :=
  ∃ l, mchs = .array l ∧ ∀ mch ∈ l, ∃ mtchs, mch.member? "mtchs".toList = some (.array mtchs) ∧
    ∀ mtch ∈ mtchs, Interpretable mtch

/-- The entries of all `mtchs` arrays of a reply, in order. -/
def entries (mchs : Json D) : List (Json D) :=
  mchs.elements.flatMap fun mch =>
    ((mch.member? "mtchs".toList).map Json.elements).getD []

def serviceId? (tmgi : Str) : Option Nat :=
  if (tmgi.take 6).length = 6 ∧ (tmgi.take 6).all isHexDigit then some (hexValue (tmgi.take 6))
  else none

/-- The announcement channel an entry describes: an identifier of six hexadecimal
digits below `0xF`, and a destination with an address and a port. -/
def announcementChannel? (mtch : Json D) : Option Mtch :=
  match mtch.member? "tmgi".toList, mtch.member? "dest".toList with
  | some (.string tmgi), some (.string dest) =>
    if ':' ∈ dest ∧ (serviceId? tmgi).any (· < 0xF) then some ⟨tmgi, dest, true⟩ else none
  | _, _ => none

def firstAnnouncementChannel (mchs : Json D) : Option Mtch :=
  ((entries mchs).filterMap announcementChannel?).head?

/-- The handler takes the entry for an announcement channel. -/
def takes (mtch : Json D) : Bool :=
  match Mtch.read mtch with
  | .ok c => announces c
  | .error _ => false

theorem read_eq_ok_iff {mtch : Json D} {c : Mtch} : Mtch.read mtch = .ok c ↔
    mtch.member? "tmgi".toList = some (.string c.tmgi) ∧
      mtch.member? "dest".toList = some (.string c.dest) ∧
      ∃ n, stoulHex (c.tmgi.take 6) = .ok n ∧ c.isServiceAnnouncement = decide (n < 0xF) := by
  constructor
  · intro h
    obtain ⟨v, hv, h⟩ := Except.eq_ok_of_bind h
    obtain ⟨tmgi, htmgi, h⟩ := Except.eq_ok_of_bind h
    obtain ⟨u, hu, h⟩ := Except.eq_ok_of_bind h
    obtain ⟨dest, hdest, h⟩ := Except.eq_ok_of_bind h
    obtain ⟨n, hn, h⟩ := Except.eq_ok_of_bind h
    rw [Json.asString_eq_ok_iff.mp htmgi] at hv
    rw [Json.asString_eq_ok_iff.mp hdest] at hu
    cases h
    exact ⟨Json.field_eq_ok_iff.mp hv, Json.field_eq_ok_iff.mp hu, n, hn, rfl⟩
  · rintro ⟨htmgi, hdest, n, hn, hflag⟩
    unfold Mtch.read
    rw [Json.field_eq_ok_iff.mpr htmgi, Json.field_eq_ok_iff.mpr hdest]
    show (stoulHex (c.tmgi.take 6) >>= fun n =>
      pure (⟨c.tmgi, c.dest, decide (n < 0xF)⟩ : Mtch)) = _
    rw [hn]
    show Except.ok (⟨c.tmgi, c.dest, decide (n < 0xF)⟩ : Mtch) = _
    rw [← hflag]

theorem interpretable_iff {mtch : Json D} : Interpretable mtch ↔ ∃ c, Mtch.read mtch = .ok c := by
  constructor
  · rintro ⟨tmgi, dest, htmgi, hdest, hhex⟩
    obtain ⟨n, hn⟩ := (stoulHex_ok_iff (List.length_take_le 6 tmgi)).mpr hhex
    exact ⟨⟨tmgi, dest, n < 0xF⟩, read_eq_ok_iff.mpr ⟨htmgi, hdest, n, hn, rfl⟩⟩
  · rintro ⟨c, hc⟩
    obtain ⟨htmgi, hdest, n, hn, _⟩ := read_eq_ok_iff.mp hc
    exact ⟨c.tmgi, c.dest, htmgi, hdest,
      (stoulHex_ok_iff (List.length_take_le 6 c.tmgi)).mp ⟨n, hn⟩⟩

theorem readMch_eq_ok_iff {mch : Json D} {l : List Mtch} : readMch mch = .ok l ↔
    ∃ mtchs, mch.member? "mtchs".toList = some (.array mtchs) ∧ mtchs.mapM Mtch.read = .ok l := by
  constructor
  · intro h
    obtain ⟨mtchs, hmtchs, h⟩ := Except.eq_ok_of_bind h
    obtain ⟨v, hv, hmtchs⟩ := Except.eq_ok_of_bind hmtchs
    rw [Json.asArray_eq_ok_iff.mp hmtchs] at hv
    exact ⟨mtchs, Json.field_eq_ok_iff.mp hv, h⟩
  · rintro ⟨mtchs, hmtchs, h⟩
    unfold readMch
    rw [Json.field_eq_ok_iff.mpr hmtchs]
    exact h

theorem channels_eq_ok_iff {mchs : Json D} {l : List Mtch} : channels (.ok mchs) = .ok l ↔
    ∃ a ls, mchs = .array a ∧ a.mapM readMch = .ok ls ∧ l = ls.flatten := by
  constructor
  · intro h
    obtain ⟨a, ha, h⟩ := Except.eq_ok_of_bind h
    obtain ⟨ls, hls, h⟩ := Except.eq_ok_of_bind h
    cases h
    exact ⟨a, ls, Json.asArray_eq_ok_iff.mp ha, hls, rfl⟩
  · rintro ⟨a, ls, rfl, hls, rfl⟩
    show (a.mapM readMch >>= fun ls => pure ls.flatten) = _
    rw [hls]
    rfl

theorem readable_iff {mchs : Json D} : Readable mchs ↔ ∃ l, channels (.ok mchs) = .ok l := by
  have hmch : ∀ mch : Json D, (∃ l, readMch mch = .ok l) ↔
      ∃ mtchs, mch.member? "mtchs".toList = some (.array mtchs) ∧
        ∀ mtch ∈ mtchs, Interpretable mtch := by
    intro mch
    constructor
    · rintro ⟨l, hl⟩
      obtain ⟨mtchs, hmtchs, hread⟩ := readMch_eq_ok_iff.mp hl
      refine ⟨mtchs, hmtchs, fun mtch hm => interpretable_iff.mpr ?_⟩
      exact Except.exists_mapM_eq_ok_iff.mp ⟨l, hread⟩ mtch hm
    · rintro ⟨mtchs, hmtchs, h⟩
      obtain ⟨l, hl⟩ := Except.exists_mapM_eq_ok_iff.mpr fun mtch hm =>
        interpretable_iff.mp (h mtch hm)
      exact ⟨l, readMch_eq_ok_iff.mpr ⟨mtchs, hmtchs, hl⟩⟩
  constructor
  · rintro ⟨a, rfl, h⟩
    obtain ⟨ls, hls⟩ := Except.exists_mapM_eq_ok_iff.mpr fun mch hm => (hmch mch).mpr (h mch hm)
    exact ⟨ls.flatten, channels_eq_ok_iff.mpr ⟨a, ls, rfl, hls, rfl⟩⟩
  · rintro ⟨l, hl⟩
    obtain ⟨a, ls, rfl, hls, _⟩ := channels_eq_ok_iff.mp hl
    exact ⟨a, rfl, fun mch hm => (hmch mch).mp (Except.exists_mapM_eq_ok_iff.mp ⟨ls, hls⟩ mch hm)⟩

/-- The channels that the handler goes through were read from the entries. -/
theorem forall₂_of_channels {mchs : Json D} {l : List Mtch} (h : channels (.ok mchs) = .ok l) :
    List.Forall₂ (fun mtch c => Mtch.read mtch = .ok c) (entries mchs) l := by
  obtain ⟨a, ls, rfl, hls, rfl⟩ := channels_eq_ok_iff.mp h
  have hentries : entries (.array a) = (a.map fun mch =>
      ((mch.member? "mtchs".toList).map Json.elements).getD []).flatten := rfl
  rw [hentries]
  apply List.rel_flatten
  rw [List.forall₂_map_left_iff]
  apply (Except.forall₂_of_mapM hls).imp
  intro mch l hl
  obtain ⟨mtchs, hmtchs, hread⟩ := readMch_eq_ok_iff.mp hl
  rw [hmtchs]
  exact Except.forall₂_of_mapM hread

theorem not_isspace_of_isHexDigit {c : Char} (h : isHexDigit c = true) :
    Text.isspace c = false := by
  by_contra hspace
  have hmem : c ∈ [' ', '\t', '\n', '\x0b', '\x0c', '\r'] := by
    unfold Text.isspace at hspace
    simpa only [Bool.not_eq_false, decide_eq_true_eq] using hspace
  simp only [List.mem_cons, List.not_mem_nil, or_false] at hmem
  rcases hmem with rfl | rfl | rfl | rfl | rfl | rfl <;> cases h

theorem dropHexPrefix_of_all {s : Str} (h : s.all isHexDigit = true) : dropHexPrefix s = s := by
  unfold dropHexPrefix
  split
  · rename_i x c rest
    have hx : ¬ ((x = 'x' ∨ x = 'X') ∧ isHexDigit c = true) := by
      rintro ⟨rfl | rfl, _⟩
      · simp [isHexDigit] at h
      · simp [isHexDigit] at h
    rw [if_neg hx]
  · rfl

theorem stoulHex_of_serviceId {tmgi : Str} {n : Nat} (h : serviceId? tmgi = some n) :
    stoulHex (tmgi.take 6) = .ok n := by
  unfold serviceId? at h
  split at h
  · rename_i hdigits
    obtain ⟨hlen, hall⟩ := hdigits
    obtain ⟨c, t, ht⟩ : ∃ c t, tmgi.take 6 = c :: t := by
      cases ht : tmgi.take 6 with
      | nil =>
        rw [ht] at hlen
        cases hlen
      | cons c t => exact ⟨c, t, rfl⟩
    rw [ht] at h hlen hall ⊢
    have hc : isHexDigit c = true := List.all_eq_true.mp hall c (by simp)
    have hminus : c ≠ '-' := by
      rintro rfl
      cases hc
    have hplus : c ≠ '+' := by
      rintro rfl
      cases hc
    have htrim : Text.trimLeft (c :: t) = c :: t := by
      simp [Text.trimLeft, not_isspace_of_isHexDigit hc]
    have hsign : dropSign (c :: t) = c :: t := by
      unfold dropSign
      split
      · rename_i heq
        cases heq
        exact absurd rfl hminus
      · rename_i heq
        cases heq
        exact absurd rfl hplus
      · rfl
    have hdigits : (c :: t).takeWhile isHexDigit = c :: t :=
      List.takeWhile_eq_self_iff.mpr fun d hd => List.all_eq_true.mp hall d hd
    have hlt : hexValue (c :: t) < 2 ^ 64 :=
      calc hexValue (c :: t) < 16 ^ (c :: t).length := hexValue_lt hall
        _ = 16 ^ 6 := by rw [hlen]
        _ < 2 ^ 64 := by decide
    have hhead : ¬ (c :: t).head? = some '-' := by
      rintro heq
      cases heq
      exact hminus rfl
    rw [stoulHex_eq, htrim, hsign, dropHexPrefix_of_all hall, hdigits]
    dsimp only
    rw [if_neg (by simp), if_neg (by omega), if_neg hhead, Option.some.inj h]
    rfl
  · cases h

theorem announcementChannel_eq_some_iff {mtch : Json D} {c : Mtch} :
    announcementChannel? mtch = some c ↔
      mtch.member? "tmgi".toList = some (.string c.tmgi) ∧
        mtch.member? "dest".toList = some (.string c.dest) ∧ ':' ∈ c.dest ∧
        (∃ n, serviceId? c.tmgi = some n ∧ n < 0xF) ∧ c.isServiceAnnouncement = true := by
  unfold announcementChannel?
  constructor
  · intro h
    split at h
    · rename_i tmgi dest htmgi hdest
      split at h
      · rename_i hc
        cases h
        exact ⟨htmgi, hdest, hc.1, by simpa [Option.any_eq_true] using hc.2, rfl⟩
      · cases h
    · cases h
  · rintro ⟨htmgi, hdest, hcolon, ⟨n, hn, hlt⟩, hflag⟩
    rw [htmgi, hdest]
    have hc : ':' ∈ c.dest ∧ (serviceId? c.tmgi).any (· < 0xF) = true := by
      rw [hn]
      exact ⟨hcolon, by simpa using hlt⟩
    dsimp only
    rw [if_pos hc, ← hflag]

theorem read_of_announcementChannel {mtch : Json D} {c : Mtch}
    (h : announcementChannel? mtch = some c) : Mtch.read mtch = .ok c ∧ announces c = true := by
  obtain ⟨htmgi, hdest, hcolon, ⟨n, hn, hlt⟩, hflag⟩ := announcementChannel_eq_some_iff.mp h
  constructor
  · refine read_eq_ok_iff.mpr ⟨htmgi, hdest, n, stoulHex_of_serviceId hn, ?_⟩
    rw [hflag, decide_eq_true hlt]
  · have hne : c.dest ≠ [] := List.ne_nil_of_mem hcolon
    simp [announces, hne, hflag]

theorem takes_of_read {mtch : Json D} {c : Mtch} (h : Mtch.read mtch = .ok c) :
    takes mtch = announces c := by
  unfold takes
  rw [h]

/-- Whether an entry describes a channel is decided by what is read of it. -/
theorem announcementChannel_congr {mtch mtch' : Json D} {c : Mtch} (h : Mtch.read mtch = .ok c)
    (h' : announcementChannel? mtch' = some c) : announcementChannel? mtch = some c := by
  obtain ⟨htmgi, hdest, _⟩ := read_eq_ok_iff.mp h
  obtain ⟨_, _, hc⟩ := announcementChannel_eq_some_iff.mp h'
  exact announcementChannel_eq_some_iff.mpr ⟨htmgi, hdest, hc⟩

/-- The first channel taken is the first one described if and only if the entry it
was read from describes one. -/
theorem find?_announces_eq_iff {es : List (Json D)} {l : List Mtch}
    (h : List.Forall₂ (fun mtch c => Mtch.read mtch = .ok c) es l) :
    l.find? announces = (es.filterMap announcementChannel?).head? ↔
      ∀ mtch, es.find? takes = some mtch → (announcementChannel? mtch).isSome := by
  induction h with
  | nil => simp
  | @cons mtch c es l hread _ ih =>
    rw [List.find?_cons, List.find?_cons, takes_of_read hread]
    cases hann : announces c with
    | false =>
      have hnone : announcementChannel? mtch = none := by
        by_contra hne
        obtain ⟨c', hc'⟩ := Option.ne_none_iff_exists'.mp hne
        obtain ⟨hread', hann'⟩ := read_of_announcementChannel hc'
        cases hread.symm.trans hread'
        cases hann.symm.trans hann'
      rw [List.filterMap_cons_none hnone]
      exact ih
    | true =>
      constructor
      · intro hhead _ hm
        cases hm
        have hmem : c ∈ (mtch :: es).filterMap announcementChannel? :=
          List.mem_of_mem_head? hhead.symm
        obtain ⟨mtch', _, hmtch'⟩ := List.mem_filterMap.mp hmem
        rw [announcementChannel_congr hread hmtch']
        rfl
      · intro hsome
        obtain ⟨c', hc'⟩ := Option.isSome_iff_exists.mp (hsome mtch rfl)
        rw [List.filterMap_cons_some hc']
        cases hread.symm.trans (read_of_announcementChannel hc').1
        rfl

theorem dest_eq_of_tuneIn {c c' : Mtch} (hcolon : ':' ∈ c'.dest)
    (h : tuneIn cfg c = tuneIn cfg c') : c.tmgi = c'.tmgi ∧ c.dest = c'.dest := by
  have htmgi : c.tmgi = c'.tmgi := by
    have ht := congrArg ServiceAnnouncement.tmgi h
    unfold tuneIn at ht
    rw [ServiceAnnouncement.tmgi_started, ServiceAnnouncement.tmgi_started] at ht
    exact ht
  have hreceiving : (tuneIn cfg c).Receiving := by
    rw [h]
    exact (ServiceAnnouncement.receiving_started rfl c'.dest).mpr hcolon
  have hcolon' : ':' ∈ c.dest := (ServiceAnnouncement.receiving_started rfl c.dest).mp hreceiving
  have hdest : ∀ d : Str, ':' ∈ d →
      d = d.takeWhile (· ≠ ':') ++ ':' :: (d.dropWhile (· ≠ ':')).drop 1 := by
    intro d hd
    have hhead : ∃ r, d.dropWhile (· ≠ ':') = ':' :: r := by
      induction d with
      | nil => cases hd
      | cons x d ih =>
        by_cases hx : x = ':'
        · exact ⟨d, by simp [hx]⟩
        · obtain ⟨r, hr⟩ := ih ((List.mem_cons.mp hd).resolve_left (Ne.symm hx))
          exact ⟨r, by rw [List.dropWhile_cons_of_pos (by simpa using hx), hr]⟩
    obtain ⟨r, hr⟩ := hhead
    conv => lhs; rw [← List.takeWhile_append_dropWhile (p := (· ≠ ':')) (l := d)]
    rw [hr]
    rfl
  unfold tuneIn ServiceAnnouncement.started at h
  rw [if_pos hcolon, if_pos hcolon'] at h
  refine ⟨htmgi, ?_⟩
  rw [hdest c.dest hcolon', hdest c'.dest hcolon]
  have haddr := congrArg ServiceAnnouncement.mcastAddr h
  have hport := congrArg ServiceAnnouncement.mcastPort h
  dsimp only at haddr hport
  rw [haddr, hport]

theorem ticked_eq_iff {clock : Clock} {m : Process D} {mchs : Json D} {l : List Mtch} :
    ticked cfg clock m (l.find? announces) = ticked cfg clock m (firstAnnouncementChannel mchs) ↔
      (m.serviceAnnouncement = none → l.find? announces = firstAnnouncementChannel mchs) := by
  constructor
  · intro h hnone
    have hsa : m.serviceAnnouncement.or ((l.find? announces).map (tuneIn cfg)) =
        m.serviceAnnouncement.or ((firstAnnouncementChannel mchs).map (tuneIn cfg)) :=
      congrArg Process.serviceAnnouncement h
    rw [hnone, Option.none_or, Option.none_or] at hsa
    cases hfirst : firstAnnouncementChannel mchs with
    | none =>
      rw [hfirst] at hsa
      exact Option.map_eq_none_iff.mp hsa
    | some c' =>
      rw [hfirst] at hsa
      obtain ⟨c, hc, htune⟩ := Option.map_eq_some_iff.mp hsa
      obtain ⟨mtch, _, hmtch⟩ := List.mem_filterMap.mp (List.mem_of_mem_head? hfirst)
      obtain ⟨_, _, hcolon, _, hflag'⟩ := announcementChannel_eq_some_iff.mp hmtch
      obtain ⟨htmgi, hdest⟩ := dest_eq_of_tuneIn cfg hcolon htune
      have hflag : c.isServiceAnnouncement = true := by
        have hann := List.find?_some hc
        simp only [announces, decide_eq_true_eq] at hann
        exact hann.2
      rw [hc]
      cases c
      cases c'
      cases htmgi
      cases hdest
      cases hflag.trans hflag'.symm
      rfl
  · intro h
    cases hsa : m.serviceAnnouncement with
    | none => rw [h hsa]
    | some sa =>
      unfold ticked
      rw [hsa, Option.some_or, Option.some_or]

/-- The tick comes to its end, after one pass over the cache and with the timer
armed again, and where no announcement was set a receiver is started for the
first announcement channel of the reply. -/
def Survives (mchs : Json D) (clock : Clock) (m : Process D) : Prop :=
  tickHandler cfg (.ok mchs) clock m =
      .ok () (ticked cfg clock m (firstAnnouncementChannel mchs)) ∧
    (m.serviceAnnouncement = none → ∀ c, firstAnnouncementChannel mchs = some c →
      ∃ sa, (ticked cfg clock m (firstAnnouncementChannel mchs)).serviceAnnouncement = some sa ∧
        sa.Receiving ∧ sa.tmgi = c.tmgi)

/-- The tick survives a reply exactly when each of its entries can be interpreted
and, where a channel is looked for, the first one taken is well formed. -/
theorem survives_iff (mchs : Json D) (clock : Clock) (m : Process D) :
    Survives cfg mchs clock m ↔ Readable mchs ∧ (m.serviceAnnouncement = none →
      ∀ mtch, (entries mchs).find? takes = some mtch → (announcementChannel? mtch).isSome) := by
  have hreceiving : m.serviceAnnouncement = none → ∀ c, firstAnnouncementChannel mchs = some c →
      ∃ sa, (ticked cfg clock m (firstAnnouncementChannel mchs)).serviceAnnouncement = some sa ∧
        sa.Receiving ∧ sa.tmgi = c.tmgi := by
    intro hnone c hc
    refine ⟨tuneIn cfg c, ?_, ?_, ServiceAnnouncement.tmgi_started c.dest _⟩
    · show m.serviceAnnouncement.or ((firstAnnouncementChannel mchs).map (tuneIn cfg)) = _
      rw [hnone, hc]
      rfl
    · obtain ⟨mtch, _, hmtch⟩ := List.mem_filterMap.mp (List.mem_of_mem_head? hc)
      obtain ⟨_, _, hcolon, _⟩ := announcementChannel_eq_some_iff.mp hmtch
      exact (ServiceAnnouncement.receiving_started rfl c.dest).mpr hcolon
  have hsurvives : Survives cfg mchs clock m ↔ tickHandler cfg (.ok mchs) clock m =
      .ok () (ticked cfg clock m (firstAnnouncementChannel mchs)) :=
    ⟨And.left, fun h => ⟨h, hreceiving⟩⟩
  rw [hsurvives, readable_iff]
  have hdoes := tickHandler_does cfg (.ok mchs) clock m
  cases hresult : tickHandler cfg (.ok mchs) clock m with
  | error e m' =>
    rw [hresult] at hdoes
    have herror : channels (.ok mchs) = .error e := hdoes
    constructor
    · intro h
      cases h
    · rintro ⟨⟨l, hl⟩, _⟩
      rw [herror] at hl
      cases hl
  | ok u m' =>
    rw [hresult] at hdoes
    obtain ⟨l, hl, rfl⟩ := hdoes
    have hfirst := find?_announces_eq_iff (forall₂_of_channels hl)
    simp only [EStateM.Result.ok.injEq, true_and]
    rw [ticked_eq_iff]
    unfold firstAnnouncementChannel
    rw [hfirst]
    exact ⟨fun h => ⟨⟨l, hl⟩, h⟩, fun h => h.2⟩

section Example

/-- A channel without a destination stands before an announcement channel. -/
def replyWithoutDest : Json Int :=
  .array [.object [("mtchs".toList, .array [
    .object [("tmgi".toList, .string "00000b009f165".toList)],
    .object [("tmgi".toList, .string "00000b009f165".toList),
      ("dest".toList, .string "239.0.0.1:5000".toList)]])]]

theorem not_survives_replyWithoutDest : ¬ ∀ (mchs : Json Int) (clock : Clock) (m : Process Int),
    Survives ProcessRun.defaultProcessConfig mchs clock m := by
  intro h
  obtain ⟨heq, _⟩ := h replyWithoutDest stoppedClock
    { world := .initial ServiceAnnouncement.bareEnvironment }
  cases heq

end Example

end Process

end MbmsMiddleware
