import MbmsMiddleware.CallLog
import MbmsMiddleware.HandlerRuns

/-! Which stream gets a unicast base pattern as its CDN endpoint when a set-up
walks through the `identicalContent` elements. -/

namespace MbmsMiddleware

open ServiceAnnouncementXmlElements

def texts (l : List XmlElement) : List Str := l.filterMap XmlElement.getText

theorem texts_concat (l : List XmlElement) {pattern : XmlElement} {t : Str}
    (h : pattern.getText = some t) : texts (l ++ [pattern]) = texts l ++ [t] := by
  simp [texts, h]

theorem stdString_eq_ok {s : Option Str} {t : Str} (h : stdString s = .ok t) : s = some t := by
  cases s with
  | none => cases h
  | some s =>
    cases h
    rfl

theorem exists_of_forall₂ {α β : Type} {R : α → β → Prop} {l : List α} {l' : List β}
    (h : List.Forall₂ R l l') :
    (∀ a ∈ l, ∃ b ∈ l', R a b) ∧ ∀ b ∈ l', ∃ a ∈ l, R a b := by
  induction h with
  | nil => exact ⟨by simp, by simp⟩
  | @cons a b l l' hab _ ih =>
    constructor
    · intro c hc
      rcases List.mem_cons.mp hc with rfl | hc
      · exact ⟨b, List.mem_cons_self, hab⟩
      · obtain ⟨d, hd, hcd⟩ := ih.1 c hc
        exact ⟨d, List.mem_cons_of_mem b hd, hcd⟩
    · intro d hd
      rcases List.mem_cons.mp hd with rfl | hd
      · exact ⟨a, List.mem_cons_self, hab⟩
      · obtain ⟨c, hc, hcd⟩ := ih.2 d hd
        exact ⟨c, List.mem_cons_of_mem a hc, hcd⟩

namespace XmlElement

def identicalTexts (identical : XmlElement) : List Str := texts (identical.childElements basePattern)

end XmlElement

namespace ServiceAnnouncement

/-- The bases of all broadcast streams, in the order in which they are made. -/
def broadcastBases (ds : List XmlElement) : List Str := ds.flatMap fun d => texts d.broadcastPatterns

def unicastBases (ds : List XmlElement) : List Str := ds.flatMap fun d => texts d.unicastPatterns

def identicalContents (appService : Option XmlElement) : List XmlElement :=
  appService.elim [] (·.childElements identicalContent)

/-- An `identicalContent` element has both of them. -/
def Identical (ics : List XmlElement) (u base : Str) : Prop :=
  ∃ identical ∈ ics, u ∈ identical.identicalTexts ∧ base ∈ identical.identicalTexts

/-- Seamless streams under their numbers. -/
def number (bases : List Str) : List Handle := bases.mapIdx fun i base => ⟨i, base, true⟩

/-- The last stream with the base. -/
def LastWith (bases : List Str) (base : Str) (i : Nat) : Prop :=
  bases[i]? = some base ∧ ∀ j, bases[j]? = some base → j ≤ i

/-- An `identicalContent` element has the unicast base pattern, and the last other
text in it that is the base of a stream is the base of this one. -/
structure Leads (soFar : List Str) (u : Str) (identical : XmlElement) (i : Nat) : Prop where
  present : ∀ pattern ∈ identical.childElements basePattern, pattern.getText ≠ none
  mentioned : u ∈ identical.identicalTexts
  last : ∃ base, (identical.identicalTexts.filter fun t => t ≠ u ∧ t ∈ soFar).getLast? = some base ∧
    LastWith soFar base i

/-- Every `identicalContent` element leads from the unicast base pattern to the
one stream that has content in common with it, among those made so far; where
there is no such stream at all, there is one element. -/
structure PairsAlways (ics : List XmlElement) (bases soFar : List Str) (u : Str) : Prop where
  paired : ∀ i base, bases[i]? = some base → Identical ics u base →
    ∀ identical ∈ ics, Leads soFar u identical i
  single : (∀ base ∈ bases, ¬ Identical ics u base) → ics.length = 1

/-- The addresses that `set_cdn_endpoint` is called on with the pattern. -/
def endpointsOf {D : Type} (u : Str) (log : List (MiddlewareCall D × World D)) : List Nat :=
  log.filterMap fun c =>
    match c.1 with
    | .setCdnEndpoint address url => if url = u then some address else none
    | _ => none

/-- A broadcast stream with content in common is the only stream that gets the
pattern; where there is none, exactly one new stream is made for it. So the
bases that get it depend on no order, nor on elements without it. -/
structure PairedRight (ics : List XmlElement) (broadcast unicast : List Handle)
    (endpoints : List Nat) (u : Str) : Prop where
  paired : ∀ h ∈ broadcast, Identical ics u h.base → ∀ a, a ∈ endpoints ↔ a = h.address
  created : (∀ h ∈ broadcast, ¬ Identical ics u h.base) →
    ∃ h ∈ unicast, h.address ∉ broadcast.map Handle.address ∧ endpoints = [h.address]
  outcome : ∀ base, (∃ h ∈ broadcast, h.base = base ∧ h.address ∈ endpoints) ↔
    base ∈ broadcast.map Handle.base ∧ Identical ics u base

theorem identicalContentStream_identical {streams : List Handle} {u : Str} {identical : XmlElement}
    {stream : Option Nat} {found : Bool}
    (h : identicalContentStream streams u identical = .ok (stream, found)) :
    (found = true → u ∈ identical.identicalTexts) ∧
      ∀ a ∈ stream, ∃ x ∈ streams, x.address = a ∧ x.base ∈ identical.identicalTexts := by
  unfold identicalContentStream at h
  refine Runs.foldlM_ok (I := fun r : Option Nat × Bool =>
    (r.2 = true → u ∈ identical.identicalTexts) ∧
      ∀ a ∈ r.1, ∃ x ∈ streams, x.address = a ∧ x.base ∈ identical.identicalTexts)
    ?_ ⟨by simp, by simp⟩ h
  rintro ⟨stream, found⟩ pattern r hp ⟨hfound, hstream⟩ hr
  obtain ⟨url, hurl, hr⟩ := Except.eq_ok_of_bind hr
  have htext : url ∈ identical.identicalTexts := by
    exact List.mem_filterMap.mpr ⟨pattern, hp, stdString_eq_ok hurl⟩
  split at hr
  · next hu =>
    cases hr
    exact ⟨fun _ => hu ▸ htext, hstream⟩
  · cases hr
    refine ⟨hfound, ?_⟩
    refine Runs.foldl_invariant_of_mem (I := fun s : Option Nat =>
      ∀ a ∈ s, ∃ x ∈ streams, x.address = a ∧ x.base ∈ identical.identicalTexts) ?_ hstream
    intro s x hx hs a ha
    split at ha
    · next hbase =>
      split at ha
      · cases ha
        exact ⟨x, hx, rfl, hbase ▸ htext⟩
      · cases ha
    · exact hs a ha

def Handle.rename (f : Nat → Nat) (h : Handle) : Handle := { h with address := f h.address }

/-- The search does not depend on the addresses. -/
theorem identicalContentStream_rename (f : Nat → Nat) (streams : List Handle) (u : Str)
    (identical : XmlElement) :
    identicalContentStream (streams.map (Handle.rename f)) u identical =
      (identicalContentStream streams u identical).map fun r => (r.1.map f, r.2) := by
  refine Except.foldlM_hom (g := fun r : Option Nat × Bool => (r.1.map f, r.2))
    (fun r pattern _ => ?_) (none, false)
  obtain ⟨stream, found⟩ := r
  cases pattern.getText with
  | none => rfl
  | some url =>
    simp only [stdString, bind, Except.bind]
    by_cases hu : u = url
    · rw [if_pos hu, if_pos hu]
      rfl
    · rw [if_neg hu, if_neg hu]
      simp only [pure, Except.pure, Except.map, List.foldl_map]
      congr 2
      refine List.foldl_hom (Option.map f) (fun s x => ?_)
      by_cases hbase : x.base = url
      · have hrename : (Handle.rename f x).base = url := hbase
        rw [if_pos hbase, if_pos hrename]
        change (if x.seamless then some (f x.address) else none) = _
        cases x.seamless <;> rfl
      · have hrename : ¬ (Handle.rename f x).base = url := hbase
        rw [if_neg hbase, if_neg hrename]

/-- The streams of a set-up are the numbered ones at their addresses. -/
theorem take_eq_rename {broadcast : List Handle} {bases : List Str}
    (hb : broadcast.map Handle.base = bases) (hs : ∀ h ∈ broadcast, h.seamless = true) (k : Nat) :
    broadcast.take k = (number (bases.take k)).map
      (Handle.rename fun i => (broadcast.map Handle.address).getD i 0) := by
  subst hb
  refine List.ext_getElem (by simp [number]) (fun i h₁ h₂ => ?_)
  have hi : i < broadcast.length := by
    rw [List.length_take] at h₁
    omega
  have hseam := hs broadcast[i] (List.getElem_mem hi)
  simp [number, Handle.rename, hi]
  cases hc : broadcast[i]
  simp_all

theorem LastWith.unique {bases : List Str} {base : Str} {i j : Nat} (hi : LastWith bases base i)
    (hj : LastWith bases base j) : i = j :=
  le_antisymm (hj.2 i hi.1) (hi.2 j hj.1)

/-- The walk through the streams for one text: the last stream with that base, if
there is one, takes the place of what was found before. -/
theorem foldl_number (soFar : List Str) (t : Str) (stream : Option Nat) :
    ((number soFar).foldl (fun stream element =>
        if element.base = t then if element.seamless then some element.address else none
        else stream) stream = stream ∧ t ∉ soFar) ∨
      ∃ i, LastWith soFar t i ∧ (number soFar).foldl (fun stream element =>
        if element.base = t then if element.seamless then some element.address else none
        else stream) stream = some i := by
  induction soFar using List.reverseRecOn with
  | nil => exact .inl ⟨rfl, by simp⟩
  | append_singleton soFar base ih =>
    have hnumber : number (soFar ++ [base]) = number soFar ++ [⟨soFar.length, base, true⟩] := by
      simp [number]
    rw [hnumber, List.foldl_append, List.foldl_cons, List.foldl_nil]
    by_cases hbase : base = t
    · subst hbase
      right
      refine ⟨soFar.length, ⟨by simp, fun j hj => ?_⟩, by simp⟩
      have hlt := (List.getElem?_eq_some_iff.mp hj).1
      rw [List.length_append, List.length_singleton] at hlt
      omega
    · rw [if_neg hbase]
      rcases ih with ⟨hstream, hno⟩ | ⟨i, ⟨hi, hlast⟩, hstream⟩
      · left
        refine ⟨hstream, fun hm => ?_⟩
        rcases List.mem_append.mp hm with hm | hm
        · exact hno hm
        · exact hbase (List.mem_singleton.mp hm).symm
      · right
        have hlt := (List.getElem?_eq_some_iff.mp hi).1
        refine ⟨i, ⟨by rw [List.getElem?_append_left hlt, hi], fun j hj => ?_⟩, hstream⟩
        by_cases hj' : j < soFar.length
        · rw [List.getElem?_append_left hj'] at hj
          exact hlast j hj
        · have hjlt := (List.getElem?_eq_some_iff.mp hj).1
          rw [List.length_append, List.length_singleton] at hjlt
          obtain rfl : j = soFar.length := by omega
          simp only [List.getElem?_concat_length, Option.some.injEq] at hj
          exact absurd hj hbase

/-- What the search has come to after some of the texts. -/
structure Searched (soFar : List Str) (u : Str) (seen : List Str) (r : Option Nat × Bool) :
    Prop where
  found : r.2 = true ↔ u ∈ seen
  stream : ∀ i, r.1 = some i ↔ ∃ base,
    (seen.filter fun t => t ≠ u ∧ t ∈ soFar).getLast? = some base ∧ LastWith soFar base i

theorem Searched.step {soFar seen : List Str} {u : Str} {r : Option Nat × Bool}
    (h : Searched soFar u seen r) (t : Str) :
    Searched soFar u (seen ++ [t]) (if u = t then (r.1, true) else
      ((number soFar).foldl (fun stream element =>
        if element.base = t then if element.seamless then some element.address else none
        else stream) r.1, r.2)) := by
  by_cases hu : u = t
  · subst hu
    rw [if_pos rfl]
    constructor
    · simp
    · simpa using h.stream
  · rw [if_neg hu]
    constructor
    · rw [h.found, List.mem_append, List.mem_singleton]
      simp [hu]
    · intro i
      rw [List.filter_append]
      rcases foldl_number soFar t r.1 with ⟨hstream, hno⟩ | ⟨k, hk, hstream⟩
      · rw [hstream, h.stream]
        simp [hno]
      · have hm : t ∈ soFar := List.mem_of_getElem? hk.1
        rw [hstream]
        simp only [Ne.symm hu, hm, List.filter_cons, ne_eq, not_false_eq_true, true_and,
          decide_true, if_true, List.filter_nil, List.getLast?_concat, Option.some.injEq,
          exists_eq_left']
        exact ⟨fun h => h ▸ hk, fun h => hk.unique h⟩

theorem identicalContentStream_searched {soFar : List Str} {u : Str} {identical : XmlElement}
    {r : Option Nat × Bool} (h : identicalContentStream (number soFar) u identical = .ok r) :
    (∀ pattern ∈ identical.childElements basePattern, pattern.getText ≠ none) ∧
      Searched soFar u identical.identicalTexts r := by
  unfold XmlElement.identicalTexts
  unfold identicalContentStream at h
  generalize identical.childElements basePattern = patterns at h
  induction patterns using List.reverseRecOn generalizing r with
  | nil =>
    cases h
    exact ⟨by simp, ⟨by simp [texts], by simp [texts]⟩⟩
  | append_singleton patterns pattern ih =>
    rw [List.foldlM_append] at h
    obtain ⟨r', hr', h⟩ := Except.eq_ok_of_bind h
    obtain ⟨hpresent, hsearched⟩ := ih hr'
    rw [List.foldlM_cons] at h
    obtain ⟨r'', h, hr''⟩ := Except.eq_ok_of_bind h
    cases hr''
    obtain ⟨t, ht, h⟩ := Except.eq_ok_of_bind h
    have htext : pattern.getText = some t := stdString_eq_ok ht
    constructor
    · intro x hx
      rcases List.mem_append.mp hx with hx | hx
      · exact hpresent x hx
      · rw [List.mem_singleton.mp hx, htext]
        exact Option.some_ne_none t
    · rw [texts_concat patterns htext]
      have hstep := hsearched.step t
      split at h
      · next hu =>
        cases h
        rwa [if_pos hu] at hstep
      · next hu =>
        cases h
        rwa [if_neg hu] at hstep

theorem identicalContentStream_returns (streams : List Handle) (u : Str) {identical : XmlElement}
    (h : ∀ pattern ∈ identical.childElements basePattern, pattern.getText ≠ none) :
    ∃ r, identicalContentStream streams u identical = .ok r := by
  unfold identicalContentStream
  generalize ((none, false) : Option Nat × Bool) = r
  generalize identical.childElements basePattern = patterns at h
  induction patterns generalizing r with
  | nil => exact ⟨r, rfl⟩
  | cons pattern patterns ih =>
    obtain ⟨t, ht⟩ := Option.ne_none_iff_exists'.mp (h pattern List.mem_cons_self)
    rw [List.foldlM_cons, ht]
    have hrest := fun r' => ih r' (fun x hx => h x (List.mem_cons_of_mem pattern hx))
    by_cases hu : u = t
    · simp only [stdString, bind, Except.bind, if_pos hu]
      exact hrest _
    · simp only [stdString, bind, Except.bind, if_neg hu]
      exact hrest _

theorem leads_iff {soFar : List Str} {u : Str} {identical : XmlElement} {i : Nat} :
    identicalContentStream (number soFar) u identical = .ok (some i, true) ↔
      Leads soFar u identical i := by
  constructor
  · intro h
    obtain ⟨hpresent, hsearched⟩ := identicalContentStream_searched h
    exact ⟨hpresent, hsearched.found.mp rfl, (hsearched.stream i).mp rfl⟩
  · intro h
    obtain ⟨⟨stream, found⟩, hr⟩ := identicalContentStream_returns (number soFar) u h.present
    obtain ⟨-, hsearched⟩ := identicalContentStream_searched hr
    obtain rfl : found = true := hsearched.found.mpr h.mentioned
    obtain rfl : stream = some i := (hsearched.stream i).mpr h.last
    exact hr

theorem identicalContentStream_number {broadcast : List Handle} {bases : List Str} {k i : Nat}
    {u : Str} {h : Handle} (hb : broadcast.map Handle.base = bases)
    (hs : ∀ h ∈ broadcast, h.seamless = true) (hd : (broadcast.map Handle.address).Nodup)
    (hi : broadcast[i]? = some h) (identical : XmlElement) :
    identicalContentStream (broadcast.take k) u identical = .ok (some h.address, true) ↔
      identicalContentStream (number (bases.take k)) u identical = .ok (some i, true) := by
  have haddress : ∀ j, (broadcast.map Handle.address).getD j 0 = h.address → j < broadcast.length →
      j = i := by
    intro j hj hlt
    have hij := (List.getElem?_eq_some_iff.mp hi).1
    simp only [List.getD_eq_getElem?_getD, List.getElem?_map, List.getElem?_eq_getElem hlt,
      Option.map_some, Option.getD_some] at hj
    have hget : (broadcast.map Handle.address)[j]? = (broadcast.map Handle.address)[i]? := by
      rw [List.getElem?_map, List.getElem?_map, List.getElem?_eq_getElem hlt, hi, Option.map_some,
        Option.map_some, hj]
    exact (List.getElem?_inj (by simpa using hlt) hd).mp hget
  rw [take_eq_rename hb hs, identicalContentStream_rename]
  constructor
  · intro hok
    cases hr : identicalContentStream (number (bases.take k)) u identical with
    | error e =>
      rw [hr] at hok
      cases hok
    | ok r =>
      obtain ⟨stream, found⟩ := r
      rw [hr] at hok
      simp only [Except.map, Except.ok.injEq, Prod.mk.injEq, Option.map_eq_some_iff] at hok
      obtain ⟨⟨j, rfl, hj⟩, rfl⟩ := hok
      obtain ⟨x, hx, hxj, -⟩ := (identicalContentStream_identical hr).2 j rfl
      have hlt : j < broadcast.length := by
        rw [number, List.mem_mapIdx] at hx
        obtain ⟨n, hn, rfl⟩ := hx
        subst hb
        simp only [List.length_take, List.length_map] at hn
        change n = j at hxj
        omega
      rw [haddress j hj hlt]
  · intro hok
    rw [hok]
    simp [Except.map, hi]

/-- What an `identicalContent` element comes to: the stream that it leads to gets
the pattern, or a new one is made. -/
def LeadsTo (streams : List Handle) (created : List Nat) (u : Str) (identical : XmlElement)
    (a : Nat) : Prop :=
  match identicalContentStream streams u identical with
  | .ok (some b, true) => a = b
  | _ => a ∈ created

theorem LeadsTo.eq_or_mem {streams : List Handle} {created : List Nat} {u : Str}
    {identical : XmlElement} {a : Nat} (h : LeadsTo streams created u identical a) :
    identicalContentStream streams u identical = .ok (some a, true) ∨ a ∈ created := by
  unfold LeadsTo at h
  split at h
  · next b hb =>
    subst h
    exact .inl hb
  · exact .inr h

theorem LeadsTo.mono {streams : List Handle} {created created' : List Nat} {u : Str}
    {identical : XmlElement} {a : Nat} (hsub : created ⊆ created')
    (h : LeadsTo streams created u identical a) : LeadsTo streams created' u identical a := by
  unfold LeadsTo at h ⊢
  split at h
  · exact h
  · exact hsub h

theorem getElem?_bases_iff {broadcast : List Handle} {bases : List Str}
    (hb : broadcast.map Handle.base = bases) (i : Nat) (base : Str) :
    bases[i]? = some base ↔ ∃ h : Handle, broadcast[i]? = some h ∧ h.base = base := by
  rw [← hb, List.getElem?_map, Option.map_eq_some_iff]

section Always

variable {ics : List XmlElement} {broadcast unicast : List Handle} {bases : List Str} {k : Nat}
  {u : Str} {endpoints : List Nat} (hb : broadcast.map Handle.base = bases)
  (hl : List.Forall₂ (LeadsTo (broadcast.take k) (unicast.map Handle.address) u) ics endpoints)
  (halways : PairsAlways ics bases (bases.take k) u)
include hb hl halways

/-- A stream that the pattern is identical with is the only one that gets it. -/
theorem mem_endpoints_iff_of_pairsAlways (hs : ∀ h ∈ broadcast, h.seamless = true)
    (hdb : (broadcast.map Handle.address).Nodup) {h : Handle} (hh : h ∈ broadcast)
    (hid : Identical ics u h.base) (a : Nat) : a ∈ endpoints ↔ a = h.address := by
  obtain ⟨hmem, hmem'⟩ := exists_of_forall₂ hl
  obtain ⟨i, hi⟩ := List.getElem?_of_mem hh
  have hleads : ∀ identical ∈ ics, ∀ a, LeadsTo (broadcast.take k) (unicast.map Handle.address)
      u identical a → a = h.address := by
    intro identical hm a hlead
    have hok := ((identicalContentStream_number hb hs hdb hi identical).trans leads_iff).mpr
      (halways.paired i h.base ((getElem?_bases_iff hb i h.base).mpr ⟨h, hi, rfl⟩) hid identical hm)
    rw [LeadsTo, hok] at hlead
    exact hlead
  constructor
  · intro ha
    obtain ⟨identical, hm, hlead⟩ := hmem' a ha
    exact hleads identical hm a hlead
  · rintro rfl
    obtain ⟨identical, hm, -, -⟩ := hid
    obtain ⟨a, ha, hlead⟩ := hmem identical hm
    exact hleads identical hm a hlead ▸ ha

/-- A pattern that is identical with no stream gets one new stream. -/
theorem endpoints_created_of_pairsAlways
    (hdisj : ∀ a ∈ broadcast.map Handle.address, ∀ b ∈ unicast.map Handle.address, a ≠ b)
    (hno : ∀ h ∈ broadcast, ¬ Identical ics u h.base) :
    ∃ h ∈ unicast, h.address ∉ broadcast.map Handle.address ∧ endpoints = [h.address] := by
  have hlen := halways.single (fun base hm => by
    rw [← hb] at hm
    obtain ⟨h, hh, rfl⟩ := List.mem_map.mp hm
    exact hno h hh)
  obtain ⟨identical, rfl⟩ := List.length_eq_one_iff.mp hlen
  obtain ⟨a, rfl⟩ := List.length_eq_one_iff.mp (hl.length_eq.symm.trans hlen)
  obtain ⟨other, hm, hlead⟩ := (exists_of_forall₂ hl).2 a List.mem_cons_self
  rcases hlead.eq_or_mem with hok | hc
  · obtain ⟨hu, hx⟩ := identicalContentStream_identical hok
    obtain ⟨x, hx, -, hxt⟩ := hx a rfl
    exact absurd ⟨_, hm, hu rfl, hxt⟩ (hno x (List.mem_of_mem_take hx))
  · obtain ⟨h, hh, rfl⟩ := List.mem_map.mp hc
    refine ⟨h, hh, fun hmb => ?_, rfl⟩
    exact hdisj h.address hmb h.address hc rfl

end Always

theorem pairedRight_iff {ics : List XmlElement} {broadcast unicast : List Handle}
    {bases : List Str} {k : Nat} {u : Str} {endpoints : List Nat}
    (hb : broadcast.map Handle.base = bases) (hs : ∀ h ∈ broadcast, h.seamless = true)
    (hd : ((broadcast ++ unicast).map Handle.address).Nodup)
    (hl : List.Forall₂ (LeadsTo (broadcast.take k) (unicast.map Handle.address) u) ics endpoints) :
    PairedRight ics broadcast unicast endpoints u ↔ PairsAlways ics bases (bases.take k) u := by
  rw [List.map_append, List.nodup_append] at hd
  obtain ⟨hdb, -, hdisj⟩ := hd
  constructor
  · rintro ⟨hpaired, hcreated, -⟩
    constructor
    · intro i base hi hid identical hm
      obtain ⟨h, hh, rfl⟩ := (getElem?_bases_iff hb i base).mp hi
      obtain ⟨a, ha, hlead⟩ := (exists_of_forall₂ hl).1 identical hm
      obtain rfl := (hpaired h (List.mem_of_getElem? hh) hid a).mp ha
      rcases hlead.eq_or_mem with hok | hc
      · exact ((identicalContentStream_number hb hs hdb hh identical).trans leads_iff).mp hok
      · have hhm := List.mem_map_of_mem (f := Handle.address) (List.mem_of_getElem? hh)
        exact absurd rfl (hdisj h.address hhm h.address hc)
    · intro hno
      obtain ⟨h, -, -, he⟩ := hcreated (fun h hh => hno h.base (hb ▸ List.mem_map_of_mem hh))
      rw [hl.length_eq, he]
      rfl
  · intro halways
    have hpairs : ∀ h ∈ broadcast, Identical ics u h.base → ∀ a, a ∈ endpoints ↔ a = h.address :=
      fun h hh hid => mem_endpoints_iff_of_pairsAlways hb hl halways hs hdb hh hid
    have hcreates := endpoints_created_of_pairsAlways hb hl halways hdisj
    refine ⟨hpairs, hcreates, fun base => ⟨?_, ?_⟩⟩
    · rintro ⟨h, hh, rfl, ha⟩
      refine ⟨List.mem_map_of_mem hh, ?_⟩
      by_cases hany : ∃ x ∈ broadcast, Identical ics u x.base
      · obtain ⟨x, hx, hid⟩ := hany
        have hsame : h.address = x.address := (hpairs x hx hid h.address).mp ha
        rw [List.inj_on_of_nodup_map hdb hh hx hsame]
        exact hid
      · push Not at hany
        obtain ⟨x, -, hxb, he⟩ := hcreates hany
        rw [he, List.mem_singleton] at ha
        exact absurd (ha ▸ List.mem_map_of_mem hh) hxb
    · rintro ⟨hm, hid⟩
      obtain ⟨h, hh, rfl⟩ := List.mem_map.mp hm
      exact ⟨h, hh, rfl, (hpairs h hh hid h.address).mpr rfl⟩

end ServiceAnnouncement

end MbmsMiddleware
