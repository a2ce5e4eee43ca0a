import MbmsMiddleware.ServedWindow
import Mathlib.Data.List.Chain

/-! Reading the served playlist back. The text carries only the first number,
so the others come back right when the window has no gap. -/

namespace MbmsMiddleware

/-- `n, n + 1, …`, as many as `length` says. -/
def countUp (n : Int) : Nat → List Int
  | 0 => []
  | length + 1 => n :: countUp (n + 1) length

theorem length_countUp (n : Int) (length : Nat) : (countUp n length).length = length := by
  induction length generalizing n with
  | zero => rfl
  | succ length ih => rw [countUp, List.length_cons, ih]

theorem countUp_eq_iff_isChain {n : Int} {l : List Int} (hn : ∀ k ∈ l.head?, k = n) :
    countUp n l.length = l ↔ l.IsChain (fun a b => b = a + 1) := by
  induction l generalizing n with
  | nil => simp [countUp]
  | cons k l ih =>
    obtain rfl : k = n := hn k rfl
    rw [List.length_cons, countUp, List.cons_eq_cons, List.isChain_cons]
    constructor
    · rintro ⟨-, h⟩
      have hhead : ∀ k' ∈ l.head?, k' = k + 1 := by
        intro k' hk'
        cases l with
        | nil => cases hk'
        | cons a l =>
          rw [List.length_cons, countUp, List.cons_eq_cons] at h
          cases hk'
          exact h.1.symm
      exact ⟨hhead, (ih hhead).mp h⟩
    · rintro ⟨hhead, h⟩
      exact ⟨rfl, (ih hhead).mpr h⟩

theorem head_add_length_le {n b : Int} {l : List Int} (hs : (n :: l).Pairwise (· < ·))
    (hb : ∀ k ∈ n :: l, k < b) : n + (n :: l).length ≤ b := by
  induction l generalizing n with
  | nil =>
    have := hb n (by simp)
    simp only [List.length_singleton]
    omega
  | cons k l ih =>
    obtain ⟨hmin, hs⟩ := List.pairwise_cons.mp hs
    have hk := hmin k (by simp)
    have := ih hs (fun k' hk' => hb k' (List.mem_cons_of_mem n hk'))
    simp only [List.length_cons] at this ⊢
    omega

namespace HlsMediaPlaylist

variable {D : Type} [DoubleText D]

theorem renumber_uri (n : Int) (segs : List (Segment D)) :
    (renumber n segs).map (·.uri) = segs.map ('/' :: ·.uri) := by
  induction segs generalizing n with
  | nil => rfl
  | cons seg segs ih => simp only [renumber, List.map_cons, ih]

theorem renumber_seq {n : Int} {segs : List (Segment D)} (h0 : -2 ^ 31 ≤ n)
    (h31 : n + segs.length ≤ 2 ^ 31) :
    (renumber n segs).map (·.seq) = countUp n segs.length := by
  induction segs generalizing n with
  | nil => rfl
  | cons seg segs ih =>
    rw [List.length_cons] at h31
    rw [renumber, List.map_cons, List.length_cons, countUp, List.cons_eq_cons]
    refine ⟨rfl, ?_⟩
    cases segs with
    | nil => rfl
    | cons seg' segs =>
      have hn : Text.toInt32 (n + 1) = n + 1 := by
        rw [List.length_cons] at h31
        exact Text.toInt32_of_range (by omega) (by omega)
      rw [hn, ih (by omega) (by omega)]

end HlsMediaPlaylist

namespace SeamlessContentStream

variable {D : Type}

/-- A stream before its first playlist: as constructed, perhaps with an endpoint. -/
inductive Ready (rest : CppRest) : SeamlessContentStream D → Prop
  | constructed (s : SeamlessContentStream D) (hsegments : s.segments = .empty)
      (hdir : s.playlistDir = []) : Ready rest s
  | endpoint (s : SeamlessContentStream D) (self : Nat) (cdnEpt : Str) (cache : Cache)
      (hs : Ready rest s) : Ready rest (setCdnEndpoint rest self cdnEpt s cache).1

/-- `web::uri` rejects a text with a line break. -/
structure LawfulCppRest (rest : CppRest) : Prop where
  uri_chars : ∀ text uri, rest.uri text = some uri → '\n' ∉ uri.path ∧ '\n' ∉ uri.query

theorem newline_notMem_pathOfUri {rest : CppRest} (hrest : LawfulCppRest rest) {text : Str}
    {uri : WebUri} (h : rest.uri text = some uri) : '\n' ∉ pathOfUri uri := by
  obtain ⟨hpath, hquery⟩ := hrest.uri_chars text uri h
  have hd : '\n' ∉ uri.path.drop 1 := fun hm => hpath (List.mem_of_mem_drop hm)
  unfold pathOfUri
  dsimp only
  split_ifs
  · rw [List.mem_append, List.mem_cons]
    rintro (hm | hm | hm)
    · exact hd hm
    · exact absurd hm (by decide)
    · exact hquery hm
  · exact hd

theorem Ready.spec {rest : CppRest} (hrest : LawfulCppRest rest) {s : SeamlessContentStream D}
    (h : Ready rest s) : s.segments = .empty ∧ '\n' ∉ s.playlistDir := by
  induction h with
  | constructed s hsegments hdir => exact ⟨hsegments, by simp [hdir]⟩
  | endpoint s self cdnEpt cache _ ih =>
    unfold setCdnEndpoint
    cases hu : rest.uri cdnEpt with
    | none => exact ih
    | some uri =>
      have hdir : '\n' ∉ dirname (pathOfUri uri) := fun hm =>
        newline_notMem_pathOfUri hrest hu ((List.rdropWhile_prefix (· ≠ '/') _).subset hm)
      dsimp only
      split_ifs <;> exact ⟨ih.1, hdir⟩

variable [DoubleText D]

theorem cleanUri_append {dir uri : Str} (hdir : '\n' ∉ dir) (hne : uri ≠ [])
    (hu : HlsMediaPlaylist.CleanUri uri) : HlsMediaPlaylist.CleanUri (dir ++ uri) := by
  refine ⟨by simp [hdir, hu.1], fun h => ?_⟩
  rw [List.getLast_append_of_right_ne_nil dir uri hne]
  exact hu.2 hne

/-- What reading the served text of a state gives. -/
def readBack (indeterminate : Int) (st : SeamlessContentStream D × Memory D) :
    Except Fault (List (Str × Int)) :=
  (HlsMediaPlaylist.parse indeterminate st.1.playlist).map fun pl : HlsMediaPlaylist D =>
    pl.segments.map fun x => (x.uri, x.seq)

/-- Numbers 3 and 4 were never received. -/
def gapCalls : List PlaylistCall :=
  [⟨0, "#EXTM3U\n#EXT-X-MEDIA-SEQUENCE:1\na.ts\nb.ts\n".toList, .broadcast⟩,
   ⟨0, "#EXTM3U\n#EXT-X-MEDIA-SEQUENCE:5\nc.ts\nd.ts\n".toList, .broadcast⟩]

def noCdn : CppRest where
  uri _ := none
  httpClient _ := false

end SeamlessContentStream

end MbmsMiddleware
