import MbmsMiddleware.PlainStream
import MbmsMiddleware.SegmentOwners

/-! Each stream by itself, whatever the others do: what is to be seen of a stream
moves by what reaches this stream, although it shares the memory and the item
map with the others. -/

namespace MbmsMiddleware

inductive StreamAlone (D : Type) where
  | basic (s : ContentStream D)
  | seamless (s : PlainStream D)

/-- What reaches a stream. -/
inductive StreamMove (D : Type) where
  | made (s : AnyStream D)
  | content (c : ContentStream D)
  | endpoint (url : Str)
  | reception (indeterminate : Int) (r : Reception)
  | download (number : Int) (now : Nat) (file : Str)

variable {D : Type}

namespace AnyStream

def view (segment : Nat → Segment D) : AnyStream D → StreamAlone D
  | .basic s => .basic s
  | .seamless s => .seamless (s.plain segment)

/-- A stream as it is made: its window is empty. -/
def madeView : AnyStream D → StreamAlone D
  | .basic s => .basic s
  | .seamless s => .seamless
    { toContentStream := s.toContentStream
      cdnEndpoint := s.cdnEndpoint
      cdnClient := s.cdnClient
      playlistDir := s.playlistDir
      playlist := s.playlist
      segments := .empty
      fluteFiles := s.fluteFiles
      segmentsToKeep := s.segmentsToKeep
      truncateCdnPlaylistSegments := s.truncateCdnPlaylistSegments }

end AnyStream

namespace StreamAlone

variable [DoubleText D] (rest : CppRest)

/-- A stream with basic delivery keeps nothing of what it receives. -/
def moveStream : StreamAlone D → StreamMove D → StreamAlone D
  | .basic _, .content c => .basic c
  | .basic s, _ => .basic s
  | .seamless s, .made _ => .seamless s
  | .seamless s, .content c => .seamless { s with toContentStream := c }
  | .seamless s, .endpoint url => .seamless (s.setCdnEndpoint rest url)
  | .seamless s, .reception indeterminate r => .seamless (s.receive indeterminate r)
  | .seamless s, .download number now file => .seamless (s.cdnFileReceived number now file)

/-- `none` before the stream is made. -/
def move : Option (StreamAlone D) → StreamMove D → Option (StreamAlone D)
  | none, .made s => some s.madeView
  | none, _ => none
  | some v, m => some (v.moveStream rest m)

end StreamAlone

namespace World

def viewAt (w : World D) (address : Nat) : Option (StreamAlone D) :=
  if address < w.nextStream then some ((w.stream address).view w.memory.segment) else none

def numberOf (w : World D) (address x : Nat) : Option Int :=
  ((w.segmentsAt address).entries.find? (·.2 = x)).map (·.1)

def addedContent (w : World D) (service address : Nat) : ContentStream D :=
  let cs := (w.service service).matchStream (w.stream address).content
  match cs.start with
  | .ok cs => cs
  | .error _ => cs

/-- What a change brings to the stream at an address. -/
def moves (address : Nat) (w : World D) : WorldChange D → List (StreamMove D)
  | .call (.newStream s) => if w.nextStream = address then [.made s] else []
  | .call (.setCdnEndpoint b url) => if b = address then [.endpoint url] else []
  | .call (.addAndStartContentStream service b) =>
    if b = address then [.content (w.addedContent service address)] else []
  | .reception b indeterminate r => if b = address then [.reception indeterminate r] else []
  | .download x now file =>
    ((w.numberOf address x).map fun number => .download number now file).toList
  | .items _ | .call _ | .cacheCheck .. => []

variable {w : World D} {address : Nat}

theorem viewAt_congr {w' : World D} (hnext : w'.nextStream = w.nextStream)
    (hstream : w'.stream address = w.stream address)
    (hsegment : ∀ s, w.stream address = .seamless s → address < w.nextStream →
      ∀ k x, s.segments.find? k = some x → w'.memory.segment x = w.memory.segment x) :
    w'.viewAt address = w.viewAt address := by
  unfold viewAt
  rw [hnext, hstream]
  split_ifs with ha
  · cases hs : w.stream address with
    | basic s => rfl
    | seamless s =>
      simp only [AnyStream.view, SeamlessContentStream.plain_congr (hsegment s hs ha)]
  · rfl

theorem numberOf_eq_some {x : Nat} {k : Int} (h : w.numberOf address x = some k) :
    (w.segmentsAt address).find? k = some x := by
  obtain ⟨e, he, rfl⟩ := Option.map_eq_some_iff.mp h
  have hx : e.2 = x := by simpa using List.find?_some he
  rw [OrdMap.find?_eq_some, ← hx]
  exact List.mem_of_find?_eq_some he

theorem numberOf_eq_none {x : Nat} (h : w.numberOf address x = none) (k : Int) :
    (w.segmentsAt address).find? k ≠ some x := by
  intro hk
  rw [numberOf, Option.map_eq_none_iff, List.find?_eq_none] at h
  exact h _ (OrdMap.find?_eq_some.mp hk) (by simp)

theorem viewAt_download (hw : w.Separate) (x now : Nat) (file : Str) (rest : CppRest)
    [DoubleText D] :
    (w.download x now file).viewAt address =
      (w.moves address (.download x now file)).foldl (StreamAlone.move rest) (w.viewAt address) := by
  change _ = ((w.numberOf address x).map fun number =>
    StreamMove.download number now file).toList.foldl (StreamAlone.move rest) (w.viewAt address)
  cases hn : w.numberOf address x with
  | none =>
    refine viewAt_congr rfl rfl fun s hs _ k y hk => ?_
    have hne : y ≠ x := by
      rintro rfl
      refine numberOf_eq_none hn k ?_
      rw [segmentsAt_of_stream hs]
      exact hk
    exact Function.update_of_ne hne _ _
  | some k =>
    have hfind := numberOf_eq_some hn
    simp only [Option.map_some, Option.toList_some, List.foldl_cons, List.foldl_nil]
    by_cases ha : address < w.nextStream
    · have hview : (w.download x now file).viewAt address =
          some ((w.stream address).view (w.download x now file).memory.segment) := if_pos ha
      have hview' : w.viewAt address = some ((w.stream address).view w.memory.segment) := if_pos ha
      rw [hview, hview']
      cases hs : w.stream address with
      | basic s =>
        unfold segmentsAt at hfind
        rw [hs] at hfind
        cases hfind
      | seamless s =>
        rw [segmentsAt_of_stream hs] at hfind
        have hown : ∀ k' y, s.segments.find? k' = some y → y = x → k' = k := by
          rintro k' y hk' rfl
          refine (hw.own address k' address k y ⟨ha, ?_⟩ ⟨ha, ?_⟩).2
          · rw [segmentsAt_of_stream hs]
            exact hk'
          · rw [segmentsAt_of_stream hs]
            exact hfind
        have hmap : s.segments.map (w.download x now file).memory.segment =
            (s.segments.map w.memory.segment).set k
              ((w.memory.segment x).cdnFileReceived now file) := by
          refine OrdMap.find?_ext fun k' => ?_
          rw [OrdMap.find?_map, OrdMap.find?_set, OrdMap.find?_map]
          split_ifs with hk'
          · subst hk'
            rw [hfind]
            exact congrArg some (Function.update_self ..)
          · cases hy : s.segments.find? k' with
            | none => rfl
            | some y =>
              have hne : y ≠ x := fun heq => hk' (hown k' y hy heq)
              exact congrArg some (Function.update_of_ne hne _ _)
        have hplain : (s.plain w.memory.segment).segments.find? k = some (w.memory.segment x) := by
          change (s.segments.map w.memory.segment).find? k = _
          rw [OrdMap.find?_map, hfind]
          rfl
        simp only [AnyStream.view, StreamAlone.move, StreamAlone.moveStream,
          PlainStream.cdnFileReceived, hplain]
        unfold SeamlessContentStream.plain
        rw [hmap]
    · have hview : w.viewAt address = none := if_neg ha
      rw [hview]
      exact if_neg ha

theorem viewAt_of_stream {s : SeamlessContentStream D} (hs : w.StreamAt address s) :
    w.viewAt address = some (.seamless (s.plain w.memory.segment)) := by
  unfold viewAt
  rw [if_pos hs.1, hs.2]
  rfl

theorem viewAt_storeStream (hw : w.Separate) {b : Nat} (hb : b < w.nextStream)
    {st : SeamlessContentStream D × Memory D}
    (hold : ∀ x < w.memory.nextSegment, st.2.segment x = w.memory.segment x) :
    (w.storeStream b st).viewAt address =
      if b = address then some (.seamless (st.1.plain st.2.segment)) else w.viewAt address := by
  split_ifs with hba
  · subst hba
    exact viewAt_of_stream (streamAt_storeStream hb st)
  · have hne : address ≠ b := fun h => hba h.symm
    refine viewAt_congr rfl (Function.update_of_ne hne _ _) fun s hs ha k x hk => hold x ?_
    refine hw.allocated address k x ⟨ha, ?_⟩
    rw [segmentsAt_of_stream hs]
    exact hk

theorem viewAt_frame {w' : World D} (hnext : w'.nextStream = w.nextStream)
    (hstream : w'.stream = w.stream) (hsegment : w'.memory.segment = w.memory.segment) :
    w'.viewAt address = w.viewAt address :=
  viewAt_congr hnext (by rw [hstream]) fun _ _ _ _ x _ => congrFun hsegment x

theorem viewAt_eq_none (h : ¬ address < w.nextStream) : w.viewAt address = none := if_neg h

theorem viewAt_newStream {cfg : Config} {s : AnyStream D} (hs : ServiceAnnouncement.Fresh cfg s) :
    ({ w.setStream w.nextStream s with nextStream := w.nextStream + 1 } : World D).viewAt address =
      if w.nextStream = address then some s.madeView else w.viewAt address := by
  split_ifs with hb
  · subst hb
    unfold viewAt
    rw [if_pos (Nat.lt_succ_self _)]
    change some (((w.setStream w.nextStream s).stream w.nextStream).view _) = _
    rw [setStream_stream_self]
    cases s with
    | basic s => rfl
    | seamless s =>
      have hwindow : s.segments = .empty := by
        change s = _ at hs
        rw [hs]
        rfl
      simp only [AnyStream.view, AnyStream.madeView, SeamlessContentStream.plain, hwindow]
      rfl
  · have hne : address ≠ w.nextStream := fun h => hb h.symm
    unfold viewAt
    have hlt : address < w.nextStream + 1 ↔ address < w.nextStream := by omega
    have hstream : (w.setStream w.nextStream s).stream address = w.stream address :=
      setStream_stream_of_ne w s hne
    change (if address < w.nextStream + 1 then
      some (((w.setStream w.nextStream s).stream address).view w.memory.segment) else none) = _
    rw [hstream]
    exact if_congr hlt rfl rfl

theorem viewAt_setStream (b : Nat) (s : AnyStream D) :
    (w.setStream b s).viewAt address =
      if b = address then
        if address < w.nextStream then some (s.view w.memory.segment) else none
      else w.viewAt address := by
  split_ifs with hba ha
  · subst hba
    unfold viewAt
    rw [setStream_stream_self]
    exact if_pos ha
  · exact if_neg ha
  · have hne : address ≠ b := fun h => hba h.symm
    exact viewAt_congr rfl (setStream_stream_of_ne w s hne) fun _ _ _ _ _ _ => rfl

variable [DoubleText D]

theorem playlistStep_old (st : SeamlessContentStream D × Memory D) (call : PlaylistCall) {x : Nat}
    (hx : x < st.2.nextSegment) :
    (SeamlessContentStream.playlistStep st call).2.segment x = st.2.segment x := by
  cases hp : (HlsMediaPlaylist.parse call.indeterminate call.content :
      Except Fault (HlsMediaPlaylist D)) with
  | error e => rw [SeamlessContentStream.playlistStep_error hp]
  | ok pl =>
    obtain ⟨-, inserted, hinserted, hsegment, -⟩ :=
      SeamlessContentStream.accept_spec pl call.source st
    rw [SeamlessContentStream.playlistStep_ok hp, hsegment]
    exact hinserted.objects x hx

theorem storeResult_handlePlaylist {s : SeamlessContentStream D}
    (hs : w.stream address = .seamless s) (call : PlaylistCall) (isPlaylist : Bool) :
    (w.storeResult address isPlaylist (SeamlessContentStream.handlePlaylist call.indeterminate
      call.content call.source (s, w.memory))).1 =
      w.storeStream address (SeamlessContentStream.playlistStep (s, w.memory) call) := by
  unfold SeamlessContentStream.playlistStep
  cases SeamlessContentStream.handlePlaylist call.indeterminate call.content call.source
      (s, w.memory) with
  | error e => exact (storeStream_self hs).symm
  | ok st => rfl

theorem viewAt_receive (hw : w.Separate) {s : SeamlessContentStream D} {b : Nat}
    (hs : w.StreamAt b s) (indeterminate : Int) (r : Reception) :
    (w.receive b indeterminate r).1.viewAt address =
      if b = address then some (.seamless ((s.plain w.memory.segment).receive indeterminate r))
      else w.viewAt address := by
  have hself : w.viewAt address =
      if b = address then some (.seamless (s.plain w.memory.segment)) else w.viewAt address := by
    split_ifs with hba
    · rw [← hba, viewAt_of_stream hs]
    · rfl
  have hbelow : SeamlessContentStream.Below (s, w.memory) := by
    intro k x hk
    refine hw.allocated b k x ⟨hs.1, ?_⟩
    rw [segmentsAt_of_stream hs.2]
    exact hk
  have hplaylist : ∀ (call : PlaylistCall) (isPlaylist : Bool),
      (w.storeResult b isPlaylist (SeamlessContentStream.handlePlaylist call.indeterminate
        call.content call.source (s, w.memory))).1.viewAt address =
        if b = address then some (.seamless ((s.plain w.memory.segment).handlePlaylist call))
        else w.viewAt address := by
    intro call isPlaylist
    rw [storeResult_handlePlaylist hs.2, viewAt_storeStream hw hs.1 fun x hx =>
      playlistStep_old (s, w.memory) call hx, SeamlessContentStream.plain_playlistStep hbelow]
  unfold receive
  rw [hs.2]
  cases r with
  | fluteFile file =>
    by_cases hpath : file.contentLocation = s.playlistPath
    · have hcall : (s.plain w.memory.segment).playlistCall indeterminate (.fluteFile file) =
          some ⟨indeterminate, file.buffer, .broadcast⟩ := if_pos hpath
      dsimp only [SeamlessContentStream.fluteFileReceived]
      rw [PlainStream.receive_playlist hcall, if_pos hpath]
      exact hplaylist ⟨indeterminate, file.buffer, .broadcast⟩ _
    · have hcall : (s.plain w.memory.segment).playlistCall indeterminate (.fluteFile file) =
          none := if_neg hpath
      dsimp only [SeamlessContentStream.fluteFileReceived]
      rw [if_neg hpath]
      by_cases hindex : file.contentLocation = ContentStream.indexM3u8
      · rw [PlainStream.receive_other hcall (if_pos (Or.inr hindex)), if_pos hindex]
        change (w.storeStream b (s, w.memory)).viewAt address = _
        rw [storeStream_self hs.2]
        exact hself
      · rw [PlainStream.receive_segmentFile hcall (if_neg (not_or.mpr ⟨hpath, hindex⟩)),
          if_neg hindex]
        exact viewAt_storeStream hw hs.1 fun _ _ => rfl
  | cdnPlaylist content =>
    dsimp only
    by_cases hclient : s.cdnClient.isSome = true
    · have hcall : (s.plain w.memory.segment).playlistCall indeterminate (.cdnPlaylist content) =
          some ⟨indeterminate, content, .cdn⟩ := if_pos hclient
      rw [PlainStream.receive_playlist hcall, if_pos hclient]
      exact hplaylist ⟨indeterminate, content, .cdn⟩ _
    · have hcall : (s.plain w.memory.segment).playlistCall indeterminate (.cdnPlaylist content) =
          none := if_neg hclient
      rw [PlainStream.receive_other hcall rfl, if_neg hclient]
      exact hself

variable {env : Environment D} {cfg : Config}

theorem viewAt_setCdnEndpoint (b : Nat) (url : Str) :
    (perform env (.setCdnEndpoint b url) w).state.viewAt address =
      (w.moves address (.call (.setCdnEndpoint b url))).foldl (StreamAlone.move env.rest)
        (w.viewAt address) := by
  change (callSetCdnEndpoint env.rest b url w).state.viewAt address =
    (if b = address then [StreamMove.endpoint url] else []).foldl (StreamAlone.move env.rest)
      (w.viewAt address)
  unfold callSetCdnEndpoint
  cases hs : w.stream b with
  | basic cs =>
    change w.viewAt address = _
    split_ifs with hba
    · subst hba
      unfold viewAt
      rw [hs]
      split_ifs <;> rfl
    · rfl
  | seamless s =>
    have hset : ∀ (v : World D), v.viewAt address = (w.setStream b (.seamless
        (s.setCdnEndpoint env.rest b url w.memory.cache).1)).viewAt address →
        v.viewAt address = (if b = address then [StreamMove.endpoint url] else []).foldl
          (StreamAlone.move env.rest) (w.viewAt address) := by
      intro v hv
      rw [hv, viewAt_setStream]
      split_ifs with hba ha
      · subst hba
        rw [viewAt_of_stream ⟨ha, hs⟩]
        simp only [List.foldl_cons, List.foldl_nil, StreamAlone.move, StreamAlone.moveStream,
          AnyStream.view, SeamlessContentStream.setCdnEndpoint, PlainStream.setCdnEndpoint]
        cases env.rest.uri url with
        | none => rfl
        | some uri =>
          dsimp only
          split_ifs <;> rfl
      · rw [viewAt_eq_none ha]
        rfl
      · rfl
    dsimp only [AnyStream.asSeamless?]
    cases (s.setCdnEndpoint env.rest b url w.memory.cache).2.2 with
    | none => exact hset _ (viewAt_frame rfl rfl rfl)
    | some e => exact hset _ (viewAt_frame rfl rfl rfl)

theorem viewAt_addAndStart (service b : Nat) :
    (perform env (.addAndStartContentStream service b) w).state.viewAt address =
      (w.moves address (.call (.addAndStartContentStream service b))).foldl
        (StreamAlone.move env.rest) (w.viewAt address) := by
  have hset : ∀ c : ContentStream D, (w.setStream b ((w.stream b).setContent c)).viewAt address =
      (if b = address then [StreamMove.content c] else []).foldl (StreamAlone.move env.rest)
        (w.viewAt address) := by
    intro c
    rw [viewAt_setStream]
    split_ifs with hba ha
    · subst hba
      unfold viewAt
      rw [if_pos ha]
      cases w.stream b <;> rfl
    · rw [viewAt_eq_none ha]
      rfl
    · rfl
  have hcontent : w.moves address (.call (.addAndStartContentStream service b)) =
      if b = address then [.content (w.addedContent service b)] else [] := by
    change (if b = address then [StreamMove.content (w.addedContent service address)] else []) = _
    split_ifs with hba
    · rw [hba]
    · rfl
  rw [hcontent, ← hset]
  change (addAndStartContentStream env service b w).state.viewAt address = _
  unfold addAndStartContentStream addedContent
  dsimp only
  cases ((w.service service).matchStream (w.stream b).content).start with
  | error e => exact viewAt_frame rfl rfl rfl
  | ok cs =>
    refine viewAt_frame rfl ?_ rfl
    exact Function.update_idem ..

/-- What is to be seen of a stream moves by what reaches this stream. -/
theorem viewAt_change (hw : w.Separate) {c : WorldChange D} (hc : w.Permitted env cfg c) :
    (w.change env c).viewAt address =
      (w.moves address c).foldl (StreamAlone.move env.rest) (w.viewAt address) := by
  cases c with
  | items items => exact viewAt_frame rfl rfl rfl
  | download x now file => exact viewAt_download hw x now file env.rest
  | cacheCheck cfg clock => exact viewAt_frame rfl rfl rfl
  | reception b indeterminate r =>
    change (w.receive b indeterminate r).1.viewAt address =
      (if b = address then [StreamMove.reception indeterminate r] else []).foldl
        (StreamAlone.move env.rest) (w.viewAt address)
    cases hs : w.stream b with
    | basic cs =>
      have hsame : (w.receive b indeterminate r).1.viewAt address = w.viewAt address := by
        unfold receive
        rw [hs]
        cases r with
        | fluteFile file => exact viewAt_frame rfl rfl rfl
        | cdnPlaylist content => rfl
      rw [hsame]
      split_ifs with hba
      · subst hba
        unfold viewAt
        rw [hs]
        split_ifs <;> rfl
      · rfl
    | seamless s =>
      rw [viewAt_receive hw ⟨hc, hs⟩]
      split_ifs with hba
      · subst hba
        rw [viewAt_of_stream ⟨hc, hs⟩]
        rfl
      · rfl
  | call op =>
    cases op with
    | newStream s =>
      refine (viewAt_newStream hc).trans ?_
      change _ = (if w.nextStream = address then [StreamMove.made s] else []).foldl
        (StreamAlone.move env.rest) (w.viewAt address)
      split_ifs with hb
      · rw [viewAt_eq_none (by omega)]
        rfl
      · rfl
    | setCdnEndpoint b url => exact viewAt_setCdnEndpoint b url
    | addAndStartContentStream service b => exact viewAt_addAndStart service b
    | readMasterManifest service manifest basePath =>
      change (callReadMasterManifest service manifest basePath w).state.viewAt address =
        w.viewAt address
      unfold callReadMasterManifest
      split <;> exact viewAt_frame rfl rfl rfl
    | newService | addName | setDeliveryProtocol | setBasePath | setService =>
      exact viewAt_frame rfl rfl rfl
    | getService | deliveryProtocol | basePath | contentStreamCount => rfl

end World

end MbmsMiddleware
