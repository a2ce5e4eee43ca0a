import MbmsMiddleware.ObjectChanges
import MbmsMiddleware.SystemRuns

/-! Where bytes and clients come from. What the item map holds at a location has
been brought for this location, and the CDN is asked at announced endpoints
only. -/

namespace MbmsMiddleware

variable {D : Type}

namespace World

/-- What is held for a location has been brought for it. -/
structure Sourced (hist : List (Str × Str)) (w : World D) : Prop where
  waiting : ∀ a s l f, w.StreamAt a s → s.fluteFiles.find? l = some f → (l, f.buffer) ∈ hist
  attached : ∀ x f, x < w.memory.nextSegment → (w.memory.segment x).fluteFile = some f →
    ((w.memory.segment x).contentLocation, f.buffer) ∈ hist
  downloaded : ∀ x b, x < w.memory.nextSegment → (w.memory.segment x).cdnFile = some b →
    ((w.memory.segment x).contentLocation, b) ∈ hist
  stored : ∀ l l' r f, w.memory.cache.find? l = some (.file l' r f) → (l, f.buffer) ∈ hist

/-- The clients of streams and segments are for announced endpoints. -/
structure Directed (env : Environment D) (w : World D) : Prop where
  streams : ∀ a s client, w.StreamAt a s → s.cdnClient = some client →
    AnnouncedClient env w.items client
  segments : ∀ x client, x < w.memory.nextSegment → (w.memory.segment x).cdnClient = some client →
    AnnouncedClient env w.items client

variable {env : Environment D} {cfg : Config} {brought hist : List (Str × Str)} {w w' : World D}

theorem Sourced.mono (h : w.Sourced hist) {hist' : List (Str × Str)} (hsub : hist ⊆ hist') :
    w.Sourced hist' where
  waiting a s l f hs hf := hsub (h.waiting a s l f hs hf)
  attached x f hx hf := hsub (h.attached x f hx hf)
  downloaded x b hx hb := hsub (h.downloaded x b hx hb)
  stored l l' r f hl := hsub (h.stored l l' r f hl)

theorem AnnouncedClient.mono {items items' : List Item} {client : Str}
    (h : AnnouncedClient env items client)
    (hitems : ∀ url, AnnouncedPattern env items url → AnnouncedPattern env items' url) :
    AnnouncedClient env items' client := by
  obtain ⟨url, uri, hurl, huri, haccepted, rfl⟩ := h
  exact ⟨url, uri, hitems url hurl, huri, haccepted, rfl⟩

theorem fluteFileReceived_eq (cs : ContentStream D) (cache : Cache) (file : FluteFile) :
    cs.fluteFileReceived cache file = (cs.fileLocation file).elim cache fun l =>
      cache.addItem (.file l file.receivedAt file) := by
  unfold ContentStream.fluteFileReceived ContentStream.fileLocation
  by_cases hindex : file.contentLocation = ContentStream.indexM3u8
  · rw [if_pos hindex, if_neg (not_not_intro hindex)]
    rfl
  · rw [if_neg hindex, if_pos hindex]
    split_ifs <;> rfl

theorem Effect.stored (h : Effect env cfg brought w w') {l l' : Str} {r : Nat} {f : FluteFile}
    (hl : w'.memory.cache.find? l = some (.file l' r f)) :
    w.memory.cache.find? l = some (.file l' r f) ∨ (l, f.buffer) ∈ brought := by
  have hadd : ∀ item : CacheItem, (∀ l r f, item ≠ .file l r f) →
      (w.memory.cache.addItem item).find? l = some (.file l' r f) →
      w.memory.cache.find? l = some (.file l' r f) := by
    intro item hitem hfind
    rw [Cache.addItem, OrdMap.find?_set] at hfind
    split_ifs at hfind
    · exact absurd (Option.some.inj hfind) (hitem l' r f)
    · exact hfind
  cases h with
  | listPlaylist location owner => exact .inl (hadd _ (by simp) hl)
  | insert a s hs y =>
    left
    change (SeamlessContentStream.insertSegment (s, w.memory) y).2.cache.find? l = _ at hl
    cases hy : s.segments.find? y.seq with
    | some x =>
      rw [SeamlessContentStream.insertSegment_known hy] at hl
      exact hl
    | none =>
      rw [SeamlessContentStream.insertSegment_new hy] at hl
      exact hadd _ (by simp) hl
  | drop a s hs =>
    left
    change (SeamlessContentStream.dropOldest (s, w.memory)).2.cache.find? l = _ at hl
    unfold SeamlessContentStream.dropOldest at hl
    dsimp only at hl
    split at hl
    · exact hl
    · dsimp only at hl
      rw [Cache.removeItem, OrdMap.find?_erase] at hl
      split_ifs at hl
      exact hl
  | store a cs ha hs file hfile =>
    change (cs.fluteFileReceived w.memory.cache file).find? l = _ at hl
    rw [fluteFileReceived_eq] at hl
    cases hlocation : cs.fileLocation file with
    | none =>
      rw [hlocation] at hl
      exact .inl hl
    | some l₀ =>
      rw [hlocation] at hl
      change (w.memory.cache.set l₀ _).find? l = _ at hl
      rw [OrdMap.find?_set] at hl
      split_ifs at hl with hloc
      · cases hl
        rw [hloc]
        exact .inr (hfile _ hlocation)
      · exact .inl hl
  | forget cache hcache => exact .inl (hcache l _ hl)
  | _ => exact .inl hl

theorem Sourced.effect (h : w.Sourced hist) (he : Effect env cfg brought w w')
    (hbrought : brought ⊆ hist) : w'.Sourced hist := by
  have hsegments := he.segments
  have hsegment : ∀ x < w'.memory.nextSegment,
      (∀ f, (w'.memory.segment x).fluteFile = some f →
        ((w'.memory.segment x).contentLocation, f.buffer) ∈ hist) ∧
      ∀ b, (w'.memory.segment x).cdnFile = some b →
        ((w'.memory.segment x).contentLocation, b) ∈ hist := by
    intro x hx
    by_cases hold : x < w.memory.nextSegment
    · rcases hsegments.old x hold with hsame | ⟨now, file, hfile, hsame⟩
      · rw [hsame]
        exact ⟨fun f hf => h.attached x f hold hf, fun b hb => h.downloaded x b hold hb⟩
      · rw [hsame]
        refine ⟨fun f hf => h.attached x f hold hf, fun b hb => ?_⟩
        cases hb
        exact hbrought hfile
    · obtain ⟨a, s, y, hs, hmade⟩ := hsegments.made x (not_lt.mp hold) hx
      rw [hmade]
      refine ⟨fun f hf => h.waiting a s _ f hs hf, fun b hb => ?_⟩
      cases hb
  constructor
  · intro a s' l f hs' hf
    rcases he.stream hs' with hfresh | ⟨s, hs, hafter⟩
    · rw [hfresh] at hf
      cases hf
    · exact (hafter.fluteFiles l f hf).elim (fun hold => h.waiting a s l f hs hold)
        fun hnew => hbrought hnew
  · exact fun x f hx hf => (hsegment x hx).1 f hf
  · exact fun x b hx hb => (hsegment x hx).2 b hb
  · intro l l' r f hl
    exact (he.stored hl).elim (fun hold => h.stored l l' r f hold) fun hnew => hbrought hnew

theorem Directed.effect (h : w.Directed env) (he : Effect env cfg brought w w') :
    w'.Directed env := by
  have hitems : ∀ url, AnnouncedPattern env w.items url → AnnouncedPattern env w'.items url := by
    cases he with
    | items items hitems => exact hitems
    | _ => exact fun _ hurl => hurl
  have hsegments := he.segments
  constructor
  · intro a s' client hs' hclient
    rcases he.stream hs' with hfresh | ⟨s, hs, hafter⟩
    · rw [hfresh] at hclient
      cases hclient
    · rcases hafter.cdnClient client hclient with hold | hnew
      · exact (h.streams a s client hs hold).mono hitems
      · exact hnew.mono hitems
  · intro x client hx hclient
    by_cases hold : x < w.memory.nextSegment
    · rcases hsegments.old x hold with hsame | ⟨now, file, -, hsame⟩
      · rw [hsame] at hclient
        exact (h.segments x client hold hclient).mono hitems
      · rw [hsame] at hclient
        exact (h.segments x client hold hclient).mono hitems
    · obtain ⟨a, s, y, hs, hmade⟩ := hsegments.made x (not_lt.mp hold) hx
      rw [hmade] at hclient
      exact (h.streams a s client hs hclient).mono hitems

theorem sourced_initial [DoubleText D] (env : Environment D) : (initial env : World D).Sourced [] := by
  refine ⟨fun a _ _ _ hs _ => absurd hs.1 (Nat.not_lt_zero a), fun x f hx _ => ?_, fun x b hx _ => ?_,
    fun l l' r f hl => ?_⟩
  · exact absurd hx (Nat.not_lt_zero x)
  · exact absurd hx (Nat.not_lt_zero x)
  · cases hl

theorem directed_initial [DoubleText D] (env : Environment D) : (initial env : World D).Directed env :=
  ⟨fun a _ _ hs _ => absurd hs.1 (Nat.not_lt_zero a), fun x _ hx _ => absurd hx (Nat.not_lt_zero x)⟩

theorem Sourced.change [DoubleText D] (h : w.Sourced hist) {c : WorldChange D}
    (hc : w.Permitted env cfg c) (hbrings : w.brings c ⊆ hist) : (w.change env c).Sourced hist :=
  Effects.invariant (fun _ _ he hv => hv.effect he hbrings) (effects_change hc) h

theorem Reachable.directed [DoubleText D] (h : Reachable env cfg w) : w.Directed env :=
  h.invariant (directed_initial env) fun _ _ _ he hw => hw.effect he

theorem Sourced.bufferText (h : w.Sourced hist) (hw : w.Separate) {l b : Str} {item : CacheItem}
    (hl : w.memory.cache.find? l = some item) (hb : RestState.bufferText w item = some b) :
    item.generated = true ∨ (l, b) ∈ hist := by
  cases item with
  | playlist | manifest => exact .inl rfl
  | file l' r f =>
    cases hb
    exact .inr (h.stored l l' r f hl)
  | segment l' r x =>
    right
    obtain ⟨-, huri, a, k, hheld⟩ := hw.listed l l' r x hl
    have hx := hw.allocated a k x hheld
    change (w.memory.segment x).contentLocation = l at huri
    change (w.memory.segment x).buffer.1 = some b at hb
    unfold Segment.buffer at hb
    cases hflute : (w.memory.segment x).completeFluteFile with
    | some f =>
      rw [hflute] at hb
      cases hb
      rw [← huri]
      exact h.attached x f hx (Option.filter_eq_some_iff.mp hflute).1
    | none =>
      rw [hflute] at hb
      cases hcdn : (w.memory.segment x).cdnFile with
      | some file =>
        rw [hcdn] at hb
        cases hb
        rw [← huri]
        exact h.downloaded x b hx hcdn
      | none =>
        rw [hcdn] at hb
        cases hb

end World

namespace System

variable [DoubleText D] (env : SystemEnvironment D) (cfg : SystemConfig)

/-- The bytes that a step brings, each with the location they are for. -/
def brings (s : System D) (e : SystemEvent D) : List (Str × Str) :=
  (s.changes env cfg e).flatMap s.world.brings

variable {env cfg} {s : System D} {hist : List (Str × Str)}

theorem Sound.sourced_step (h : s.Sound env cfg) (hsourced : s.world.Sourced hist)
    (e : SystemEvent D) : (s.step env cfg e).world.Sourced (hist ++ s.brings env cfg e) := by
  unfold brings
  rw [step_world]
  have hpermitted := h.permitted e
  rcases s.changes_cases env cfg e with hnone | ⟨c, hc⟩
  · rw [hnone]
    exact hsourced.mono (List.subset_append_left _ _)
  · rw [hc] at hpermitted ⊢
    rw [List.flatMap_singleton]
    exact (hsourced.mono (List.subset_append_left _ _)).change
      (hpermitted c List.mem_cons_self) (List.subset_append_right _ _)

variable (env cfg)

theorem sourced_run (es : List (SystemEvent D)) :
    (es.foldl (step env cfg) (start env cfg)).world.Sourced
      (Runs.trace (step env cfg) (brings env cfg) (start env cfg) es) := by
  have hstart : (start env cfg).world.Sourced [] :=
    start_invariant (World.sourced_initial _)
      (fun w items hw hc => hw.change (c := .items items) hc (List.nil_subset _))
      fun w op hw hc => hw.change (c := .call op) hc (List.nil_subset _)
  have hrun := Runs.trace_invariant (I := Sound env cfg)
    (P := fun hist s => s.world.Sourced hist) (fun _ e h => h.step e)
    (fun _ _ e h hsourced => h.sourced_step hsourced e) sound_start hstart es
  rwa [List.nil_append] at hrun

/-- The CDN is only ever asked at announced endpoints. -/
theorem clients_announced (es : List (SystemEvent D)) :
    (es.foldl (step env cfg) (start env cfg)).world.Directed env.toEnvironment :=
  (sound_run es).world.directed

end System

end MbmsMiddleware
