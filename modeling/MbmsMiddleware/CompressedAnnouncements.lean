import MbmsMiddleware.Redelivery

/-! An announcement received as it is and the same announcement compressed: what
is stored of each and what is parsed. -/

namespace MbmsMiddleware

namespace ServiceAnnouncement

def gzipType : Str := "application/x-gzip".toList

/-- In this memory a zero byte, or its end, follows the text, and none is in it. -/
def HoldsText (memory text : Str) : Prop :=
  '\x00' ∉ text ∧ ∃ rest, memory = text ++ rest ∧ ∀ c ∈ rest.head?, c = '\x00'

theorem cString_eq_iff {memory text : Str} : cString memory = text ↔ HoldsText memory text := by
  unfold cString
  constructor
  · rintro rfl
    refine ⟨fun h => ?_, memory.dropWhile (· ≠ '\x00'), List.takeWhile_append_dropWhile.symm, ?_⟩
    · simpa using List.mem_takeWhile_imp h
    · intro c hc
      have hhead := List.head?_dropWhile_not (· ≠ '\x00') memory
      rw [Option.mem_def.mp hc] at hhead
      simpa using hhead
  · rintro ⟨hzero, rest, rfl, hrest⟩
    have htext : ∀ c ∈ text, (c ≠ '\x00' : Bool) = true := by
      intro c hc
      have hne : c ≠ '\x00' := by
        rintro rfl
        exact hzero hc
      simpa using hne
    rw [List.takeWhile_append_of_pos htext]
    cases rest with
    | nil => simp
    | cons c rest =>
      have hc : c = '\x00' := hrest c rfl
      simp [hc]

variable {D : Type} (env : ReceptionEnvironment D)

/-- The file is not passed over. -/
def Processed (sa : ServiceAnnouncement) (file : FluteFile) : Prop :=
  sa.bootstrapped = false ∨ sa.toi ≠ file.toi

/-- The payload is what is stored, and what `parse_bootstrap` is called with. -/
def Reads (payload : Str) (file : FluteFile) (sa : ServiceAnnouncement) : Prop :=
  textToParse env file sa = ({ sa with toi := file.toi, rawContent := payload }, .ok (some payload))

theorem textToParse_of_processed {sa : ServiceAnnouncement} {file : FluteFile}
    (h : Processed sa file) {content : Str} (hcontent : contentOf env file = .ok content) :
    textToParse env file sa =
      ({ sa with toi := file.toi, rawContent := content }, .ok (some (bufferText env file))) := by
  have hguard : (!sa.bootstrapped || decide (sa.toi ≠ file.toi)) = true := by
    rcases h with h | h
    · rw [h]
      rfl
    · rw [decide_eq_true h, Bool.or_true]
  unfold textToParse
  rw [if_pos hguard, hcontent]

theorem reads_iff_of_processed {sa : ServiceAnnouncement} {file : FluteFile} {content payload : Str}
    (h : Processed sa file) (hcontent : contentOf env file = .ok content) :
    Reads env payload file sa ↔ content = payload ∧ bufferText env file = payload := by
  unfold Reads
  rw [textToParse_of_processed env h hcontent]
  constructor
  · intro heq
    have hstored := congrArg (·.1.rawContent) heq
    have hparsed := congrArg (·.2) heq
    exact ⟨hstored, Option.some.inj (Except.ok.inj hparsed)⟩
  · rintro ⟨rfl, hparsed⟩
    rw [hparsed]

theorem reads_iff_of_plain {sa : ServiceAnnouncement} {file : FluteFile} (h : Processed sa file)
    (hplain : file.contentType ≠ gzipType) :
    Reads env file.buffer file sa ↔ HoldsText (file.buffer ++ env.behind file) file.buffer := by
  have hcontent : contentOf env file = .ok (bufferText env file) := if_neg hplain
  rw [reads_iff_of_processed env h hcontent, and_self, bufferText, cString_eq_iff]

theorem reads_iff_of_compressed {sa : ServiceAnnouncement} {file : FluteFile} {payload : Str}
    (h : Processed sa file) (hgzip : file.contentType = gzipType)
    (hpayload : env.decompress file.buffer = .ok payload) :
    Reads env payload file sa ↔ HoldsText (file.buffer ++ env.behind file) payload := by
  have hcontent : contentOf env file = .ok payload := (if_pos hgzip).trans hpayload
  rw [reads_iff_of_processed env h hcontent, eq_self_iff_true, true_and, bufferText, cString_eq_iff]

variable [DoubleText D] (cfg : Config)

/-- A file and its compressed form are received alike: the payload is stored and
parsed in both cases, so that the content, the items and the services are the
same. -/
structure SameReception (plain compressed : FluteFile) (sa : ServiceAnnouncement) (w : World D) :
    Prop where
  readsPlain : Reads env plain.buffer plain sa
  readsCompressed : Reads env plain.buffer compressed sa
  content : (fluteFileReceived env cfg plain sa w).1.rawContent =
    (fluteFileReceived env cfg compressed sa w).1.rawContent
  result : (fluteFileReceived env cfg plain sa w).2 = (fluteFileReceived env cfg compressed sa w).2

theorem fluteFileReceived_of_reads {payload : Str} {file : FluteFile} {sa : ServiceAnnouncement}
    (h : Reads env payload file sa) (w : World D) :
    fluteFileReceived env cfg file sa w = ({ sa with toi := file.toi, rawContent := payload },
      World.parseBootstrap env.toEnvironment cfg payload w) := by
  unfold fluteFileReceived
  rw [show textToParse env file sa = _ from h]

/-- A file and its compressed form are received alike exactly when the memory at
the buffer of both of them holds the uncompressed payload as a C string. -/
theorem sameReception_iff {plain compressed : FluteFile} {sa : ServiceAnnouncement}
    (hplain : plain.contentType ≠ gzipType) (hgzip : compressed.contentType = gzipType)
    (hpayload : env.decompress compressed.buffer = .ok plain.buffer)
    (hp : Processed sa plain) (hc : Processed sa compressed) (w : World D) :
    SameReception env cfg plain compressed sa w ↔
      HoldsText (plain.buffer ++ env.behind plain) plain.buffer ∧
        HoldsText (compressed.buffer ++ env.behind compressed) plain.buffer := by
  rw [← reads_iff_of_plain env hp hplain, ← reads_iff_of_compressed env hc hgzip hpayload]
  constructor
  · exact fun h => ⟨h.readsPlain, h.readsCompressed⟩
  · rintro ⟨h, h'⟩
    have heq := fluteFileReceived_of_reads env cfg h w
    have heq' := fluteFileReceived_of_reads env cfg h' w
    exact ⟨h, h', by rw [heq, heq'], by rw [heq, heq']⟩

/-- What begins like a gzip stream is not the payload, unless that does as well. -/
theorem not_sameReception_of_magic {plain compressed : FluteFile} {sa : ServiceAnnouncement}
    {stream : Str} (hstream : compressed.buffer = '\x1f' :: '\x8b' :: stream)
    (hgzip : compressed.contentType = gzipType)
    (hpayload : env.decompress compressed.buffer = .ok plain.buffer)
    (hc : Processed sa compressed) (hmagic : plain.buffer.head? ≠ some '\x1f') (w : World D) :
    ¬ SameReception env cfg plain compressed sa w := by
  intro h
  obtain ⟨_, rest, hmemory, hrest⟩ :=
    (reads_iff_of_compressed env hc hgzip hpayload).mp h.readsCompressed
  rw [hstream] at hmemory
  cases hbuffer : plain.buffer with
  | nil =>
    rw [hbuffer, List.nil_append] at hmemory
    have hzero := hrest '\x1f' (by rw [← hmemory]; rfl)
    cases hzero
  | cons c buffer =>
    rw [hbuffer] at hmemory hmagic
    have hc : '\x1f' = c := (List.cons.inj hmemory).1
    exact hmagic (congrArg some hc.symm)

section Example

/-- The letter a, compressed. -/
def compressedA : Str :=
  ['\x1f', '\x8b', '\x08', '\x00', '\x00', '\x00', '\x00', '\x00', '\x02', '\x03', 'K', '\x04',
    '\x00', 'C', '\xbe', '\xb7', '\xe8', '\x01', '\x00', '\x00', '\x00']

def gzipEnvironment : ReceptionEnvironment Int where
  toEnvironment := bareEnvironment
  decompress s := if s = compressedA then .ok ['a'] else .error .logicError
  behind _ := ['\x00']

def plainFile : FluteFile := ⟨"sa.multipart".toList, 1, "multipart/related".toList, ['a'], 0, true⟩

def compressedFile : FluteFile := ⟨"sa.multipart".toList, 1, gzipType, compressedA, 0, true⟩

def idleAnnouncement : ServiceAnnouncement := { tmgi := [], tsi := 0, iface := [] }

theorem sameReception_plainFile_iff :
    SameReception gzipEnvironment {} plainFile compressedFile idleAnnouncement
        (World.initial bareEnvironment) ↔
      HoldsText (['a'] ++ ['\x00']) ['a'] ∧ HoldsText (compressedA ++ ['\x00']) ['a'] :=
  sameReception_iff gzipEnvironment {} (by decide) rfl rfl (.inl rfl) (.inl rfl) _

/-- The compressed bytes are parsed in place of the letter. -/
theorem compressed_bytes_parsed :
    ¬ ∀ (plain compressed : FluteFile) (sa : ServiceAnnouncement) (w : World Int),
      plain.contentType ≠ gzipType → compressed.contentType = gzipType →
      gzipEnvironment.decompress compressed.buffer = .ok plain.buffer →
      Processed sa plain → Processed sa compressed →
      SameReception gzipEnvironment {} plain compressed sa w := by
  intro h
  have hsame := h plainFile compressedFile idleAnnouncement (World.initial bareEnvironment)
    (by decide) rfl rfl (.inl rfl) (.inl rfl)
  have htext := congrArg Prod.snd hsame.readsCompressed
  cases htext

end Example

end ServiceAnnouncement

end MbmsMiddleware
