import MbmsMiddleware.MapValues
import MbmsMiddleware.SystemStreams

/-! The files that a stream holds, waiting or in its window. A file is held under
its own location and as often as it was received at most, so no two segments
share one. -/

namespace MbmsMiddleware

/-- The file that a reception brings, if it brings one. -/
def Reception.file? : Reception → Option FluteFile
  | .fluteFile file => some file
  | .cdnPlaylist _ => none

variable {D : Type}

namespace PlainStream

def attached (s : PlainStream D) : Multiset FluteFile :=
  s.segments.values.filterMap (·.fluteFile)

def held (s : PlainStream D) : Multiset FluteFile := s.fluteFiles.values + s.attached

/-- Files wait and are attached under their own locations. -/
structure Filed (s : PlainStream D) : Prop where
  waiting : ∀ l f, s.fluteFiles.find? l = some f → f.contentLocation = l
  attached : ∀ k x f, s.segments.find? k = some x → x.fluteFile = some f →
    f.contentLocation = x.contentLocation

variable {s : PlainStream D}

/-- A file that waits for a segment goes over to it. -/
theorem held_insertSegment_le (s : PlainStream D) (x : HlsMediaPlaylist.Segment D) :
    (s.insertSegment x).held ≤ s.held := by
  unfold insertSegment
  cases hx : s.segments.find? x.seq with
  | some y => exact le_rfl
  | none =>
    have hattached : (s.segments.set x.seq (s.newSegment x)).values.filterMap (·.fluteFile) ≤
        (s.newSegment x ::ₘ s.segments.values).filterMap (·.fluteFile) :=
      Multiset.filterMap_le_filterMap _ (OrdMap.values_set_le ..)
    have hfile : (s.newSegment x).fluteFile = s.fluteFiles.find? (s.playlistDir ++ x.uri) := rfl
    change (s.fluteFiles.erase (s.playlistDir ++ x.uri)).values +
      (s.segments.set x.seq (s.newSegment x)).values.filterMap (·.fluteFile) ≤ _
    refine (add_le_add le_rfl hattached).trans ?_
    cases hl : s.fluteFiles.find? (s.playlistDir ++ x.uri) with
    | some f =>
      rw [Multiset.filterMap_cons_some _ _ _ (hfile.trans hl)]
      unfold held attached
      rw [OrdMap.values_erase_of_find? hl, Multiset.add_cons, Multiset.cons_add]
    | none =>
      rw [Multiset.filterMap_cons_none _ _ (hfile.trans hl)]
      exact add_le_add (OrdMap.values_filter_le ..) le_rfl

theorem held_foldl_insertSegment_le (xs : List (HlsMediaPlaylist.Segment D)) (s : PlainStream D) :
    (xs.foldl insertSegment s).held ≤ s.held :=
  Runs.foldl_invariant (I := fun t : PlainStream D => t.held ≤ s.held)
    (fun t x h => (held_insertSegment_le t x).trans h) le_rfl xs

theorem held_accept_le (s : PlainStream D) (pl : HlsMediaPlaylist D) (source : ItemSource) :
    (s.accept pl source).held ≤ s.held := by
  refine le_trans ?_ (held_foldl_insertSegment_le (SeamlessContentStream.reached
    s.truncateCdnPlaylistSegments source pl.segments) s)
  unfold accept
  exact add_le_add le_rfl
    (Multiset.filterMap_le_filterMap _ (OrdMap.values_dropFront_le ..))

theorem held_cdnFileReceived (s : PlainStream D) (number : Int) (now : Nat) (file : Str) :
    (s.cdnFileReceived number now file).held = s.held := by
  unfold cdnFileReceived
  cases hx : s.segments.find? number with
  | none => rfl
  | some x =>
    have hattached : (s.segments.set number (x.cdnFileReceived now file)).values.filterMap
        (·.fluteFile) = s.attached := by
      unfold attached
      rw [OrdMap.values_set, OrdMap.values_erase_of_find? hx, Multiset.filterMap_cons,
        Multiset.filterMap_cons]
      rfl
    change s.fluteFiles.values +
      (s.segments.set number (x.cdnFileReceived now file)).values.filterMap (·.fluteFile) = _
    rw [hattached]
    rfl

theorem Filed.insertSegment (h : s.Filed) (x : HlsMediaPlaylist.Segment D) :
    (s.insertSegment x).Filed := by
  unfold PlainStream.insertSegment
  cases hx : s.segments.find? x.seq with
  | some y => exact h
  | none =>
    refine ⟨fun l f hf => ?_, fun k y f hy hf => ?_⟩
    · dsimp only at hf
      rw [OrdMap.find?_erase] at hf
      split_ifs at hf
      exact h.waiting l f hf
    · dsimp only at hy
      rw [OrdMap.find?_set] at hy
      split_ifs at hy
      · obtain rfl := Option.some.inj hy
        exact h.waiting _ f hf
      · exact h.attached k y f hy hf

theorem Filed.accept (h : s.Filed) (pl : HlsMediaPlaylist D) (source : ItemSource) :
    (s.accept pl source).Filed := by
  have hinserted := Runs.foldl_invariant (I := Filed) (fun t x ht => Filed.insertSegment ht x) h
    (SeamlessContentStream.reached s.truncateCdnPlaylistSegments source pl.segments)
  unfold PlainStream.accept
  exact ⟨hinserted.waiting, fun k x f hx hf =>
    hinserted.attached k x f (OrdMap.find?_dropFront hx) hf⟩

theorem Filed.cdnFileReceived (h : s.Filed) (number : Int) (now : Nat) (file : Str) :
    (s.cdnFileReceived number now file).Filed := by
  unfold PlainStream.cdnFileReceived
  cases hx : s.segments.find? number with
  | none => exact h
  | some x =>
    refine ⟨h.waiting, fun k y f hy hf => ?_⟩
    dsimp only at hy
    rw [OrdMap.find?_set] at hy
    split_ifs at hy
    · obtain rfl := Option.some.inj hy
      exact h.attached number x f hx hf
    · exact h.attached k y f hy hf

variable [DoubleText D]

theorem held_handlePlaylist_le (s : PlainStream D) (call : PlaylistCall) :
    (s.handlePlaylist call).held ≤ s.held := by
  unfold handlePlaylist
  split
  · exact le_rfl
  · exact held_accept_le s _ _

theorem held_receive_le (s : PlainStream D) (indeterminate : Int) (r : Reception) :
    (s.receive indeterminate r).held ≤ s.held + (r.file?.toList : List FluteFile) := by
  have hsame : s.held ≤ s.held + (r.file?.toList : List FluteFile) :=
    Multiset.le_add_right _ _
  cases hcall : s.playlistCall indeterminate r with
  | some call =>
    rw [receive_playlist hcall]
    exact (held_handlePlaylist_le s call).trans hsame
  | none =>
    cases hfile : s.segmentFile r with
    | none => rwa [receive_other hcall hfile]
    | some file =>
      have hr : r.file? = some file := by
        cases r with
        | cdnPlaylist content => cases hfile
        | fluteFile file' =>
          change (if _ then none else some file') = some file at hfile
          split_ifs at hfile
          exact hfile
      rw [receive_segmentFile hcall hfile, hr]
      change (s.fluteFiles.set file.contentLocation file).values + s.attached ≤ s.held + {file}
      refine (add_le_add (OrdMap.values_set_le ..) le_rfl).trans ?_
      rw [Multiset.cons_add, ← Multiset.singleton_add, add_comm]
      rfl

theorem Filed.receive (h : s.Filed) (indeterminate : Int) (r : Reception) :
    (s.receive indeterminate r).Filed := by
  cases hcall : s.playlistCall indeterminate r with
  | some call =>
    rw [receive_playlist hcall]
    unfold PlainStream.handlePlaylist
    split
    · exact h
    · exact ⟨(h.accept _ _).waiting, (h.accept _ _).attached⟩
  | none =>
    cases hfile : s.segmentFile r with
    | none => rwa [receive_other hcall hfile]
    | some file =>
      rw [receive_segmentFile hcall hfile]
      refine ⟨fun l f hf => ?_, h.attached⟩
      dsimp only at hf
      rw [OrdMap.find?_set] at hf
      split_ifs at hf with hl
      · obtain rfl := Option.some.inj hf
        exact hl.symm
      · exact h.waiting l f hf

end PlainStream

namespace StreamAlone

def Holds (received : List FluteFile) : Option (StreamAlone D) → Prop
  | some (.seamless s) => s.Filed ∧ s.held ≤ received
  | _ => True

variable {received : List FluteFile} {v : Option (StreamAlone D)}

theorem holds_made {cfg : Config} {s : AnyStream D} (h : ServiceAnnouncement.Fresh cfg s)
    (received : List FluteFile) : Holds received (some s.madeView) := by
  cases s with
  | basic s => trivial
  | seamless s =>
    change s = _ at h
    rw [h]
    refine ⟨⟨fun l f hf => ?_, fun k x f hx => ?_⟩, Multiset.zero_le _⟩
    · cases hf
    · cases hx

variable [DoubleText D]

theorem Holds.reception (h : Holds received v) (rest : CppRest) (x : Int × Reception) :
    Holds (received ++ x.2.file?.toList) (StreamAlone.move rest v (.reception x.1 x.2)) := by
  cases v with
  | none => trivial
  | some v =>
    cases v with
    | basic s => trivial
    | seamless s =>
      refine ⟨h.1.receive x.1 x.2, (s.held_receive_le x.1 x.2).trans ?_⟩
      rw [← Multiset.coe_add]
      exact add_le_add h.2 le_rfl

theorem Holds.move (h : Holds received v) {cfg : Config} (rest : CppRest) {m : StreamMove D}
    (hm : m.reception? = none) (hmade : m.Announced cfg) :
    Holds received (StreamAlone.move rest v m) := by
  cases v with
  | none =>
    cases m with
    | made s => exact holds_made hmade received
    | _ => trivial
  | some v =>
    cases v with
    | basic s => cases m <;> trivial
    | seamless s =>
      cases m with
      | reception => cases hm
      | made => exact h
      | content => exact ⟨⟨h.1.waiting, h.1.attached⟩, h.2⟩
      | endpoint url =>
        change Holds received (some (.seamless (s.setCdnEndpoint rest url)))
        unfold PlainStream.setCdnEndpoint
        split <;> exact ⟨⟨h.1.waiting, h.1.attached⟩, h.2⟩
      | download number now file =>
        exact ⟨h.1.cdnFileReceived number now file, (s.held_cdnFileReceived number now file).trans_le h.2⟩

end StreamAlone

namespace System

variable [DoubleText D] (env : SystemEnvironment D) (cfg : SystemConfig)

def files (address : Nat) (s : System D) (e : SystemEvent D) : List FluteFile :=
  (s.receptions address e).flatMap fun x => x.2.file?.toList

/-- In every run a seamless stream holds files that it has received itself, each
under its own location and no more often than it was received. -/
theorem files_held_once (address : Nat) (es : List (SystemEvent D)) :
    StreamAlone.Holds (Runs.trace (step env cfg) (files address) (start env cfg) es)
      ((es.foldl (step env cfg) (start env cfg)).world.viewAt address) :=
  stream_law (P := StreamAlone.Holds) trivial (fun _ _ x h => h.reception env.rest x)
    (fun _ _ _ hm hmade h => h.move env.rest hm hmade) address es

end System

end MbmsMiddleware
