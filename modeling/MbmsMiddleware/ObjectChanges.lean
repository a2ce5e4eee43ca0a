import MbmsMiddleware.SegmentOwners

/-! What an effect does to a single object. A segment is made from the stream
that lists it and then takes downloads only. A stream takes files, and clients
for announced endpoints. -/

namespace MbmsMiddleware

variable {D : Type}

/-- What a segment keeps for good, and that data do not go. -/
structure Segment.Became (x y : Segment D) : Prop where
  contentLocation : y.contentLocation = x.contentLocation
  seq : y.seq = x.seq
  extinf : y.extinf = x.extinf
  cdnClient : y.cdnClient = x.cdnClient
  fluteFile : y.fluteFile = x.fluteFile
  cdnFile : x.cdnFile.isSome → y.cdnFile.isSome

theorem Segment.Became.refl (x : Segment D) : x.Became x := ⟨rfl, rfl, rfl, rfl, rfl, id⟩

theorem Segment.Became.trans {x y z : Segment D} (h : x.Became y) (h' : y.Became z) : x.Became z where
  contentLocation := h'.contentLocation.trans h.contentLocation
  seq := h'.seq.trans h.seq
  extinf := h'.extinf.trans h.extinf
  cdnClient := h'.cdnClient.trans h.cdnClient
  fluteFile := h'.fluteFile.trans h.fluteFile
  cdnFile := h'.cdnFile ∘ h.cdnFile

theorem Segment.became_cdnFileReceived (x : Segment D) (now : Nat) (file : Str) :
    x.Became (x.cdnFileReceived now file) := ⟨rfl, rfl, rfl, rfl, rfl, fun _ => rfl⟩

namespace World

/-- A client for an announced endpoint that the client library accepts. -/
def AnnouncedClient (env : Environment D) (items : List Item) (client : Str) : Prop :=
  ∃ url uri, AnnouncedPattern env items url ∧ env.rest.uri url = some uri ∧
    env.rest.httpClient uri.endpoint = true ∧ client = uri.endpoint

structure SegmentsAfter (brought : List (Str × Str)) (w w' : World D) : Prop where
  next : w.memory.nextSegment ≤ w'.memory.nextSegment
  old : ∀ x < w.memory.nextSegment, w'.memory.segment x = w.memory.segment x ∨
    ∃ now file, ((w.memory.segment x).contentLocation, file) ∈ brought ∧
      w'.memory.segment x = (w.memory.segment x).cdnFileReceived now file
  made : ∀ x, w.memory.nextSegment ≤ x → x < w'.memory.nextSegment →
    ∃ a s y, w.StreamAt a s ∧ w'.memory.segment x = SeamlessContentStream.newSegment s y

structure StreamAfter (env : Environment D) (items : List Item) (brought : List (Str × Str))
    (s s' : SeamlessContentStream D) : Prop where
  segmentsToKeep : s'.segmentsToKeep = s.segmentsToKeep
  fluteFiles : ∀ l f, s'.fluteFiles.find? l = some f →
    s.fluteFiles.find? l = some f ∨ (l, f.buffer) ∈ brought
  cdnClient : ∀ client, s'.cdnClient = some client →
    s.cdnClient = some client ∨ AnnouncedClient env items client

theorem StreamAfter.refl (env : Environment D) (items : List Item) (brought : List (Str × Str))
    (s : SeamlessContentStream D) : StreamAfter env items brought s s :=
  ⟨rfl, fun _ _ h => .inl h, fun _ h => .inl h⟩

variable {env : Environment D} {cfg : Config} {brought : List (Str × Str)} {w w' : World D}

theorem SegmentsAfter.of_eq (hsegment : w'.memory.segment = w.memory.segment)
    (hnext : w'.memory.nextSegment = w.memory.nextSegment) : SegmentsAfter brought w w' := by
  refine ⟨hnext.ge, fun x _ => .inl (by rw [hsegment]), fun x hx hx' => ?_⟩
  omega

theorem dropOldest_segment (s : SeamlessContentStream D) (m : Memory D) :
    (SeamlessContentStream.dropOldest (s, m)).2.segment = m.segment ∧
      (SeamlessContentStream.dropOldest (s, m)).2.nextSegment = m.nextSegment := by
  unfold SeamlessContentStream.dropOldest
  dsimp only
  split <;> exact ⟨rfl, rfl⟩

theorem Effect.segments (h : Effect env cfg brought w w') : SegmentsAfter brought w w' := by
  cases h with
  | insert a s hs y =>
    cases hy : s.segments.find? y.seq with
    | some x =>
      rw [SeamlessContentStream.insertSegment_known hy]
      exact .of_eq rfl rfl
    | none =>
      rw [SeamlessContentStream.insertSegment_new hy]
      refine ⟨Nat.le_succ _, fun x hx => .inl (Function.update_of_ne hx.ne _ _), fun x hx hx' => ?_⟩
      have hnext : x = w.memory.nextSegment := by
        change x < w.memory.nextSegment + 1 at hx'
        omega
      rw [hnext]
      exact ⟨a, s, y, hs, Function.update_self ..⟩
  | drop a s hs =>
    obtain ⟨hsegment, hnext⟩ := dropOldest_segment s w.memory
    exact .of_eq hsegment hnext
  | download x now file hx hl =>
    refine ⟨le_rfl, fun y _ => ?_, fun y hy hy' => absurd hy' (not_lt.mpr hy)⟩
    by_cases hyx : y = x
    · subst hyx
      exact .inr ⟨now, file, hl, Function.update_self ..⟩
    · exact .inl (Function.update_of_ne hyx _ _)
  | _ => exact .of_eq rfl rfl

theorem streamAfter_redirected {s : SeamlessContentStream D} {url : Str} {uri : WebUri}
    {client : Option Str} (hurl : AnnouncedPattern env w.items url) (huri : env.rest.uri url = some uri)
    (hclient : client = s.cdnClient ∨
      env.rest.httpClient uri.endpoint = true ∧ client = some uri.endpoint) :
    StreamAfter env w.items brought s (redirected uri client s) := by
  refine ⟨rfl, fun _ _ h => .inl h, fun c hc => ?_⟩
  rcases hclient with hold | ⟨haccepted, hnew⟩
  · exact .inl (hold.symm.trans hc)
  · have hsome : some uri.endpoint = some c := hnew.symm.trans hc
    exact .inr ⟨url, uri, hurl, huri, haccepted, (Option.some.inj hsome).symm⟩

/-- A waiting file may go over to the segment that is made. -/
theorem streamAfter_insertSegment (s : SeamlessContentStream D) (m : Memory D)
    (y : HlsMediaPlaylist.Segment D) :
    StreamAfter env w.items brought s (SeamlessContentStream.insertSegment (s, m) y).1 := by
  cases hy : s.segments.find? y.seq with
  | some x =>
    rw [SeamlessContentStream.insertSegment_known hy]
    exact .refl ..
  | none =>
    rw [SeamlessContentStream.insertSegment_new hy]
    refine ⟨rfl, fun l f hf => .inl ?_, fun _ h => .inl h⟩
    dsimp only at hf
    rw [OrdMap.find?_erase] at hf
    split_ifs at hf
    exact hf

theorem streamAfter_dropOldest (s : SeamlessContentStream D) (m : Memory D) :
    StreamAfter env w.items brought s (SeamlessContentStream.dropOldest (s, m)).1 := by
  unfold SeamlessContentStream.dropOldest
  dsimp only
  split
  · exact .refl ..
  · exact ⟨rfl, fun _ _ h => .inl h, fun _ h => .inl h⟩

theorem streamAfter_keep {s : SeamlessContentStream D} {file : FluteFile}
    (hfile : (file.contentLocation, file.buffer) ∈ brought) :
    StreamAfter env w.items brought s
      { s with fluteFiles := s.fluteFiles.set file.contentLocation file } := by
  refine ⟨rfl, fun l f hf => ?_, fun _ h => .inl h⟩
  dsimp only at hf
  rw [OrdMap.find?_set] at hf
  split_ifs at hf with hl
  · cases hf
    exact .inr (by rw [hl]; exact hfile)
  · exact .inl hf

theorem streamAfter_setContent {a b : Nat} {c : ContentStream D} {s' : SeamlessContentStream D}
    (hs' : (w.setStream b ((w.stream b).setContent c)).StreamAt a s') :
    ∃ s, w.StreamAt a s ∧ StreamAfter env w.items brought s s' := by
  obtain ⟨ha, hstream⟩ := hs'
  by_cases hab : a = b
  · subst hab
    rw [setStream_stream_self] at hstream
    cases ht : w.stream a with
    | basic t =>
      rw [ht] at hstream
      cases hstream
    | seamless t =>
      rw [ht] at hstream
      cases hstream
      exact ⟨t, ⟨ha, ht⟩, rfl, fun _ _ h => .inl h, fun _ h => .inl h⟩
  · rw [setStream_stream_of_ne _ _ hab] at hstream
    exact ⟨s', ⟨ha, hstream⟩, .refl ..⟩

theorem Effect.stream (h : Effect env cfg brought w w') {a : Nat} {s' : SeamlessContentStream D}
    (hs' : w'.StreamAt a s') :
    s' = ServiceAnnouncement.newSeamlessContentStream cfg s'.toContentStream ∨
    ∃ s, w.StreamAt a s ∧ StreamAfter env w.items brought s s' := by
  have hset : ∀ {b : Nat} {t t' : SeamlessContentStream D}, w.stream b = .seamless t →
      StreamAfter env w.items brought t t' → (w.setStream b (.seamless t')).stream a = .seamless s' →
      a < w.nextStream → ∃ s, w.StreamAt a s ∧ StreamAfter env w.items brought s s' := by
    intro b t t' ht hafter hstream ha
    by_cases hab : a = b
    · subst hab
      rw [setStream_stream_self] at hstream
      cases hstream
      exact ⟨t, ⟨ha, ht⟩, hafter⟩
    · rw [setStream_stream_of_ne _ _ hab] at hstream
      exact ⟨s', ⟨ha, hstream⟩, .refl ..⟩
  obtain ⟨ha, hstream⟩ := hs'
  cases h with
  | newStream t ht =>
    by_cases hab : a = w.nextStream
    · subst hab
      change (w.setStream w.nextStream t).stream w.nextStream = _ at hstream
      rw [setStream_stream_self] at hstream
      subst hstream
      exact .inl ht
    · change (w.setStream w.nextStream t).stream a = _ at hstream
      rw [setStream_stream_of_ne _ _ hab] at hstream
      change a < w.nextStream + 1 at ha
      exact .inr ⟨s', ⟨by omega, hstream⟩, .refl ..⟩
  | content b c => exact .inr (streamAfter_setContent ⟨ha, hstream⟩)
  | redirect b t ht url hurl uri huri client hclient =>
    exact .inr (hset ht (streamAfter_redirected hurl huri hclient) hstream ha)
  | insert b t ht y => exact .inr (hset ht.2 (streamAfter_insertSegment t w.memory y) hstream ha)
  | drop b t ht => exact .inr (hset ht.2 (streamAfter_dropOldest t w.memory) hstream ha)
  | render b t ht playlist =>
    have hafter : StreamAfter env w.items brought t { t with playlist := playlist } :=
      ⟨rfl, fun _ _ h => .inl h, fun _ h => .inl h⟩
    exact .inr (hset ht.2 hafter hstream ha)
  | keep b t ht file hfile => exact .inr (hset ht.2 (streamAfter_keep hfile) hstream ha)
  | _ => exact .inr ⟨s', ⟨ha, hstream⟩, .refl ..⟩

end World

end MbmsMiddleware
