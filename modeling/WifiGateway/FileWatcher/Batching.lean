import WifiGateway.FileWatcher.Watcher

/-!
# Writes and notifications

The file stays where it is and is only appended to; a chunk is what is written between two
notifications that are handled. Each notification reads its chunk and nothing else
(`chunk_step`), so what is emitted is the chunks cut into pieces one by one
(`chunks_emitted`), while the lines are those of all chunks together.

`batching_independence` compares the two: they agree just if every chunk consists of whole
lines, the first of them within the 1024 bytes that the first `readLine` takes.
-/

namespace WifiGateway.FileWatcher

variable {isSpace : Char → Bool} {s : State} {i : Nat}

/-- Everything in the file at the path has been read. -/
structure State.CaughtUp (s : State) (i : Nat) : Prop where
  path : s.disk.path = some i
  inode : s.watcher.inode = i
  currSize : s.watcher.currSize = UInt32.ofNat (s.disk.contents i).length

/-- The events of a chunk. -/
def chunkEvents (chunk : Bytes) : List Event := [.append chunk, .fileChanged]

/-- A notification reads the chunk before it. -/
theorem chunk_step (h : s.CaughtUp i) {chunk : Bytes} (hnul : 0 ∉ chunk)
    (hsize : (s.disk.contents i).length + chunk.length < UInt32.size) :
    let s' := s.run isSpace (chunkEvents chunk)
    s'.CaughtUp i ∧ s'.disk.contents i = s.disk.contents i ++ chunk ∧
      s'.emitted = s.emitted ++
        (Lines.scanned newline 1024 chunk).map fun line => (i, signal isSpace line) := by
  let d : Disk :=
    { s.disk with contents := Function.update s.disk.contents i (s.disk.contents i ++ chunk) }
  have hnew : d.contents i = s.disk.contents i ++ chunk := Function.update_self ..
  have hcurr : s.watcher.currSize.toNat = (s.disk.contents i).length := by
    rw [h.currSize]
    exact UInt32.toNat_ofNat_of_lt' (Nat.lt_of_le_of_lt (Nat.le_add_right ..) hsize)
  have hdrop : (d.contents i).drop s.watcher.currSize.toNat = chunk := by
    rw [hnew, hcurr]
    exact List.drop_left
  have hread : s.watcher.watchedFileChanged isSpace d =
      ({ s.watcher with currSize := UInt32.ofNat (d.contents i).length },
        (Lines.scanned newline 1024 chunk).map (signal isSpace)) := by
    have hle : s.watcher.currSize.toNat ≤ (d.contents i).length := by
      rw [hnew, hcurr, List.length_append]
      exact Nat.le_add_right ..
    rw [watchedFileChanged_eq (d := d) h.path h.inode hle, scan_eq (d := d) h.path hle, hdrop]
    rw [hdrop]
    exact hnul
  have hrun : s.run isSpace (chunkEvents chunk) =
      { watcher := { s.watcher with currSize := UInt32.ofNat (d.contents i).length }
        disk := d
        emitted := s.emitted ++
          (Lines.scanned newline 1024 chunk).map fun line => (i, signal isSpace line) } := by
    have hinode : d.getINode = i := by simp [d, Disk.getINode, h.path]
    show (s.step isSpace (.append chunk)).step isSpace .fileChanged = _
    have happend : s.step isSpace (.append chunk) = { s with disk := d } := by
      simp only [State.step, h.path, d]
    rw [happend]
    simp only [State.step, State.handled, hread, hinode, List.map_map, Function.comp_def]
  rw [hrun]
  exact ⟨⟨h.path, h.inode, rfl⟩, hnew, rfl⟩

theorem start_caughtUp {d : Disk} (hpath : d.path = some i) : (State.start d).CaughtUp i where
  path := hpath
  inode := by simp [State.start, Watcher.construct, Disk.getINode, hpath]
  currSize := by simp [State.start, Watcher.construct, Disk.size, hpath]

/-- What is emitted is the pieces of every chunk. -/
theorem chunks_emitted (h : s.CaughtUp i) {chunks : List Bytes} (hnul : ∀ c ∈ chunks, 0 ∉ c)
    (hsize : (s.disk.contents i).length + chunks.flatten.length < UInt32.size) :
    (s.run isSpace (chunks.flatMap chunkEvents)).emitted.map Prod.snd =
      s.emitted.map Prod.snd ++
        (chunks.flatMap (Lines.scanned newline 1024)).map (signal isSpace) := by
  induction chunks generalizing s with
  | nil => simp [State.run]
  | cons c chunks ih =>
    obtain ⟨hc, hrest⟩ := List.forall_mem_cons.mp hnul
    rw [List.flatten_cons, List.length_append] at hsize
    obtain ⟨hcaught, hcontents, hemitted⟩ := @chunk_step isSpace s i h c hc (by omega)
    have hlen : ((s.run isSpace (chunkEvents c)).disk.contents i).length + chunks.flatten.length <
        UInt32.size := by
      rw [hcontents, List.length_append]
      omega
    have ih' := ih hcaught hrest hlen
    rw [hemitted] at ih'
    rw [List.flatMap_cons, State.run, List.foldl_append]
    refine ih'.trans ?_
    simp

/-- What is emitted is the complete lines of all that was appended if and only if each chunk is
empty, or ends with a newline and begins with a line of at most 1024 bytes. -/
theorem batching_independence (isSpace : Char → Bool) {d : Disk} (hpath : d.path = some i)
    {chunks : List Bytes} (hnul : ∀ c ∈ chunks, 0 ∉ c)
    (hsize : (d.contents i).length + chunks.flatten.length < UInt32.size) :
    ((State.start d).run isSpace (chunks.flatMap chunkEvents)).emitted.map Prod.snd =
        (Lines.complete newline chunks.flatten).map (signal isSpace) ↔
      ∀ c ∈ chunks, c = [] ∨
        Lines.Ended newline c ∧ (Lines.takeLine newline c).1.length ≤ 1024 := by
  rw [chunks_emitted (start_caughtUp hpath) hnul hsize]
  have hflatten : (chunks.flatMap (Lines.scanned newline 1024)).flatten = chunks.flatten := by
    rw [List.flatMap, List.flatten_flatten]
    simp [Function.comp_def, Lines.scanned_flatten]
  have hpieces : ∀ p ∈ chunks.flatMap (Lines.scanned newline 1024), Lines.Piece newline p := by
    intro p hp
    obtain ⟨c, -, hc⟩ := List.mem_flatMap.mp hp
    exact Lines.scanned_piece (by decide) p hc
  have hended : (∀ p ∈ chunks.flatMap (Lines.scanned newline 1024), Lines.Ended newline p) ↔
      ∀ c ∈ chunks, c = [] ∨
        Lines.Ended newline c ∧ (Lines.takeLine newline c).1.length ≤ 1024 := by
    simp only [← Lines.scanned_ended, List.mem_flatMap]
    exact ⟨fun h c hc p hp => h p ⟨c, hc, hp⟩, fun h p hp => by
      obtain ⟨c, hc, hp⟩ := hp
      exact h c hc p hp⟩
  rw [← hended]
  constructor
  · intro h
    -- as many signals as lines
    have hlen := congrArg List.length h
    apply (Lines.length_eq_complete hpieces).mp
    simpa [State.start, hflatten] using hlen
  · intro h
    rw [← hflatten, Lines.complete_of_ended fun p hp => ⟨hpieces p hp, h p hp⟩]
    rfl

/-- An empty file. -/
def emptyFile : Disk := ⟨some 1, fun _ => [], 2⟩

/-- Two lines, written one by one. -/
theorem batching_independence_whole :
    ((State.start emptyFile).run Char.isWhitespace
        ([[97, 10], [98, 10]].flatMap chunkEvents)).emitted.map Prod.snd =
        (Lines.complete newline [[97, 10], [98, 10]].flatten).map (signal Char.isWhitespace) ↔
      ∀ c ∈ [[97, 10], [98, 10]], c = [] ∨
        Lines.Ended newline c ∧ (Lines.takeLine newline c).1.length ≤ 1024 :=
  batching_independence Char.isWhitespace (d := emptyFile) rfl (by decide) (by decide)

/-- "ab", a notification, "c" and the end of the line: two signals for one line. -/
theorem line_cut_in_two :
    ((State.start emptyFile).run Char.isWhitespace
        ([[97, 98], [99, 10]].flatMap chunkEvents)).emitted.map Prod.snd ≠
      (Lines.complete newline [[97, 98], [99, 10]].flatten).map (signal Char.isWhitespace) := by
  intro h
  rw [chunks_emitted (start_caughtUp (d := emptyFile) rfl) (by decide) (by decide)] at h
  have hlen := congrArg List.length h
  simp only [List.length_append, List.length_map] at hlen
  exact absurd hlen (by decide)

end WifiGateway.FileWatcher
