import WifiGateway.FileWatcher.Batching

/-!
# Rotation

The file at the path is renamed away, new files are created in its place and written to,
and notifications are handled at any time. A new file (an inode from `first` on) is either
the one that the watcher is reading, and then what was emitted of it is the lines up to
`currSize`; or it waits to be noticed by `watchedDirChanged`, which records its inode, and
nothing was emitted of it (`Good`).

`watchedFileChanged` reads a waiting file too, without recording its inode, so that it is
read from its start again later. `Careful` says of a step that it does not run into this,
nor into the limit of the first `readLine`, nor into the end of a 32-bit position;
`step_good` is the step, `run_good` the run.
-/

namespace WifiGateway.FileWatcher

variable {isSpace : Char → Bool} {first : Nat} {s : State} {e : Event} {es : List Event} {i : Nat}

/-- The text consists of whole lines. -/
def WholeLines (bytes : Bytes) : Prop := bytes = [] ∨ Lines.Ended newline bytes

/-- What the step is expected to do no harm for: the file at the path, if it is a new one. -/
def Careful (first : Nat) (s : State) (e : Event) : Prop :=
  ∀ i, s.disk.path = some i → first ≤ i →
    match e with
    | .append bytes => 0 ∉ bytes
    | .fileChanged =>
      if i = s.watcher.inode then
        (s.disk.contents i).length < UInt32.size ∧
          (Lines.takeLine newline
            ((s.disk.contents i).drop s.watcher.currSize.toNat)).1.length ≤ 1024
      else s.disk.contents i = []
    | .dirChanged =>
      s.watcher.watched = false →
        (s.disk.contents i).length < UInt32.size ∧
          (Lines.takeLine newline (s.disk.contents i)).1.length ≤ 1024
    | .renameAway | .create => True

/-- Every step of a run is careful. -/
def CarefulRun (isSpace : Char → Bool) (first : Nat) : State → List Event → Prop
  | _, [] => True
  | s, e :: es => Careful first s e ∧ CarefulRun isSpace first (s.step isSpace e) es

/-- The lines of the first `n` bytes of a file, as they are emitted. -/
def signals (isSpace : Char → Bool) (bytes : Bytes) : List String :=
  (Lines.lines newline bytes).map (signal isSpace)

/-- The watcher reads the file `i`. -/
structure State.Reads (isSpace : Char → Bool) (s : State) (i : Nat) : Prop where
  currSize : s.watcher.currSize.toNat ≤ (s.disk.contents i).length
  whole : WholeLines ((s.disk.contents i).take s.watcher.currSize.toNat)
  emitted : s.emittedOf i =
    signals isSpace ((s.disk.contents i).take s.watcher.currSize.toNat)

/-- What holds in careful runs. -/
structure State.Good (isSpace : Char → Bool) (first : Nat) (s : State) : Prop where
  first_le : first ≤ s.disk.next
  path_lt : ∀ i, s.disk.path = some i → i < s.disk.next
  inode_lt : s.watcher.inode < s.disk.next
  unused : ∀ i, s.disk.next ≤ i → s.disk.contents i = []
  text : ∀ i, first ≤ i → WholeLines (s.disk.contents i) ∧ 0 ∉ s.disk.contents i
  /-- The path is watched just if the watcher has recorded the file that is there. -/
  watched : s.watcher.watched = true ↔ s.disk.path = some s.watcher.inode
  reading : s.disk.path = some s.watcher.inode → first ≤ s.watcher.inode →
    s.Reads isSpace s.watcher.inode
  waiting : ∀ i, s.disk.path = some i → i ≠ s.watcher.inode → first ≤ i → s.emittedOf i = []
  once : ∀ i, first ≤ i → s.emittedOf i <+: signals isSpace (s.disk.contents i)

/-! ## Signals -/

theorem signals_append {t bytes : Bytes} (ht : WholeLines t) :
    signals isSpace (t ++ bytes) = signals isSpace t ++ signals isSpace bytes := by
  unfold signals
  rw [Lines.lines_append ht, List.map_append]

theorem WholeLines.append {t bytes : Bytes} (ht : WholeLines t) (hb : WholeLines bytes) :
    WholeLines (t ++ bytes) := by
  rcases hb with rfl | hb
  · rwa [List.append_nil]
  · refine .inr ?_
    have hlast : bytes.getLast? = some newline := hb
    rw [Lines.Ended, List.getLast?_append, hlast]
    rfl

/-- What a handler emits is added for the file at the path. -/
theorem emittedOf_handled (r : Watcher × List String) (j : Nat) :
    (s.handled r).emittedOf j =
      if s.disk.getINode = j then s.emittedOf j ++ r.2 else s.emittedOf j := by
  unfold State.emittedOf State.handled
  rw [List.filter_append, List.map_append, List.filter_map, List.map_map]
  by_cases hj : s.disk.getINode = j
  · simp [hj, Function.comp_def]
  · simp [hj, Function.comp_def]

/-! ## One step -/

theorem good_append (h : s.Good isSpace first) {bytes : Bytes} (hwhole : WholeLines bytes)
    (hc : Careful first s (.append bytes)) :
    (s.step isSpace (.append bytes)).Good isSpace first := by
  cases hpath : s.disk.path with
  | none => simpa only [State.step, hpath] using h
  | some i =>
    have hstep : s.step isSpace (.append bytes) = { s with disk := { s.disk with
        contents := Function.update s.disk.contents i (s.disk.contents i ++ bytes) } } := by
      simp only [State.step, hpath]
    have hcontents : ∀ j, Function.update s.disk.contents i (s.disk.contents i ++ bytes) j =
        if j = i then s.disk.contents i ++ bytes else s.disk.contents j := by
      intro j
      exact Function.update_apply ..
    have hi : i < s.disk.next := h.path_lt i hpath
    rw [hstep]
    refine ⟨h.first_le, h.path_lt, h.inode_lt, ?_, ?_, h.watched, ?_, h.waiting, ?_⟩
    · intro j hj
      have hne : j ≠ i := Nat.ne_of_gt (Nat.lt_of_lt_of_le hi hj)
      simp only [hcontents, if_neg hne]
      exact h.unused j hj
    · intro j hj
      simp only [hcontents]
      split
      · next hji =>
        subst hji
        obtain ⟨hlines, hnul⟩ := h.text j hj
        refine ⟨hlines.append hwhole, ?_⟩
        rw [List.mem_append, not_or]
        exact ⟨hnul, hc j hpath hj⟩
      · exact h.text j hj
    · intro hp hf
      have hreads := h.reading hp hf
      have hji : s.watcher.inode = i := (Option.some.inj (hp.symm.trans hpath))
      rw [hji] at hreads ⊢
      have htake : (s.disk.contents i ++ bytes).take s.watcher.currSize.toNat =
          (s.disk.contents i).take s.watcher.currSize.toNat :=
        List.take_append_of_le_length hreads.currSize
      refine ⟨?_, ?_, ?_⟩
      · simp only [hcontents, if_pos, List.length_append]
        exact Nat.le_trans hreads.currSize (Nat.le_add_right ..)
      · simp only [hcontents, if_pos, htake]
        exact hreads.whole
      · simp only [hcontents, if_pos, htake]
        exact hreads.emitted
    · intro j hj
      simp only [hcontents]
      split
      · next hji =>
        subst hji
        rw [signals_append (h.text j hj).1]
        exact (h.once j hj).trans (List.prefix_append ..)
      · exact h.once j hj

theorem good_renameAway (h : s.Good isSpace first) :
    (s.step isSpace .renameAway).Good isSpace first := by
  refine ⟨h.first_le, fun i hp => absurd hp (by simp [State.step]), h.inode_lt, h.unused,
    h.text, ?_, fun hp => absurd hp (by simp [State.step]),
    fun i hp => absurd hp (by simp [State.step]), h.once⟩
  have hunwatched : s.disk.path = none → s.watcher.watched = false := by
    intro hnone
    rw [Bool.eq_false_iff, ne_eq, h.watched, hnone]
    simp
  cases hp : s.disk.path with
  | none => simp [State.step, hp, hunwatched hp]
  | some i => simp [State.step, hp]

theorem good_create (h : s.Good isSpace first) : (s.step isSpace .create).Good isSpace first := by
  cases hpath : s.disk.path with
  | some i => simpa only [State.step, hpath] using h
  | none =>
    have hstep : s.step isSpace .create = { s with disk := { s.disk with
        path := some s.disk.next, next := s.disk.next + 1 } } := by
      simp only [State.step, hpath]
    have hne : s.watcher.inode ≠ s.disk.next := Nat.ne_of_lt h.inode_lt
    have hunwatched : ¬ s.watcher.watched = true := by
      rw [h.watched, hpath]
      simp
    rw [hstep]
    refine ⟨Nat.le_succ_of_le h.first_le, ?_, Nat.lt_succ_of_lt h.inode_lt,
      fun j hj => h.unused j (Nat.le_of_succ_le hj), h.text, ?_, ?_, ?_, h.once⟩
    · intro i hp
      rw [← Option.some.inj hp]
      exact Nat.lt_succ_self _
    · exact iff_of_false hunwatched fun hp => hne (Option.some.inj hp).symm
    · intro hp
      exact absurd (Option.some.inj hp).symm hne
    · intro i hp _ hi
      -- the new file is empty, so nothing of it was emitted
      have honce := h.once i hi
      rw [h.unused i (Nat.le_of_eq (Option.some.inj hp))] at honce
      exact List.prefix_nil.mp honce

/-- What has to be known of a handler that has run: it may have read the file at the path. -/
theorem good_handled (h : s.Good isSpace first) {r : Watcher × List String}
    (hinode : r.1.inode < s.disk.next)
    (hwatched : r.1.watched = true ↔ s.disk.path = some r.1.inode)
    (hnone : s.disk.path = none → r.2 = [])
    (hread : ∀ i, s.disk.path = some i → first ≤ i →
      (i = r.1.inode → (s.handled r).Reads isSpace i) ∧
        (i ≠ r.1.inode → (s.handled r).emittedOf i = []) ∧
        (s.handled r).emittedOf i <+: signals isSpace (s.disk.contents i)) :
    (s.handled r).Good isSpace first := by
  refine ⟨h.first_le, h.path_lt, hinode, h.unused, h.text, hwatched, ?_, ?_, ?_⟩
  · intro hp hi
    exact (hread _ hp hi).1 rfl
  · intro i hp hne hi
    exact (hread i hp hi).2.1 hne
  · intro i hi
    by_cases hp : s.disk.path = some i
    · exact (hread i hp hi).2.2
    · have hsame : (s.handled r).emittedOf i = s.emittedOf i := by
        rw [emittedOf_handled]
        cases hpath : s.disk.path with
        | none => simp [hnone hpath]
        | some j =>
          have hne : s.disk.getINode ≠ i := by
            intro he
            rw [Disk.getINode, hpath] at he
            exact hp (hpath.trans (congrArg some he))
          rw [if_neg hne]
      rw [hsame]
      exact h.once i hi

theorem scan_keeps (w : Watcher) (d : Disk) :
    (w.scan isSpace d).1.inode = w.inode ∧ (w.scan isSpace d).1.watched = w.watched ∧
      (d.path = none → (w.scan isSpace d).2 = []) := by
  unfold Watcher.scan
  cases hp : d.path with
  | none => simp
  | some i => simp

theorem watchedFileChanged_keeps (w : Watcher) (d : Disk) :
    (w.watchedFileChanged isSpace d).1.inode = w.inode ∧
      (w.watchedFileChanged isSpace d).1.watched = w.watched ∧
      (d.path = none → (w.watchedFileChanged isSpace d).2 = []) := by
  unfold Watcher.watchedFileChanged
  split
  · exact scan_keeps _ d
  · exact scan_keeps _ d

/-- A new file that the watcher does not know is empty: nothing is emitted. -/
theorem watchedFileChanged_empty {w : Watcher} {d : Disk} (hpath : d.path = some i)
    (hempty : d.contents i = []) : (w.watchedFileChanged isSpace d).2 = [] := by
  have hscan : ∀ w : Watcher, (w.scan isSpace d).2 = [] := by
    intro w
    simp [Watcher.scan, hpath, hempty, Lines.readLine, Lines.takeLine, scanLoop, toQString]
  unfold Watcher.watchedFileChanged
  split
  · exact hscan _
  · exact hscan _

/-- All that is in the file at the path was emitted. -/
def State.Complete (isSpace : Char → Bool) (s : State) (i : Nat) : Prop :=
  s.emittedOf i = signals isSpace (s.disk.contents i)

/-- A scan of the file that is being read completes it. -/
theorem reads_scan {w : Watcher} (h : { s with watcher := w }.Reads isSpace i)
    (hpath : s.disk.path = some i) (htext : WholeLines (s.disk.contents i) ∧ 0 ∉ s.disk.contents i)
    (hsize : (s.disk.contents i).length < UInt32.size)
    (hline : (Lines.takeLine newline
      ((s.disk.contents i).drop w.currSize.toNat)).1.length ≤ 1024) :
    (s.handled (w.scan isSpace s.disk)).Reads isSpace i ∧
      (s.handled (w.scan isSpace s.disk)).Complete isSpace i := by
  obtain ⟨hwhole, hnul⟩ := htext
  have hread := @scan_eq isSpace w s.disk i hpath h.currSize
    fun hmem => hnul (List.drop_subset _ _ hmem)
  rw [Lines.scanned_eq_lines hline] at hread
  have hgetINode : s.disk.getINode = i := by simp [Disk.getINode, hpath]
  have hcomplete : (s.handled (w.scan isSpace s.disk)).emittedOf i =
      signals isSpace (s.disk.contents i) := by
    have hemitted : s.emittedOf i =
        signals isSpace ((s.disk.contents i).take w.currSize.toNat) := h.emitted
    rw [emittedOf_handled, if_pos hgetINode, hread, hemitted]
    show _ ++ signals isSpace _ = _
    rw [← signals_append h.whole, List.take_append_drop]
  have hsize' : (s.handled (w.scan isSpace s.disk)).watcher.currSize.toNat =
      (s.disk.contents i).length := by
    show (w.scan isSpace s.disk).1.currSize.toNat = _
    rw [hread]
    exact UInt32.toNat_ofNat_of_lt' hsize
  refine ⟨⟨?_, ?_, ?_⟩, hcomplete⟩
  · exact Nat.le_of_eq hsize'
  · rw [hsize']
    show WholeLines ((s.disk.contents i).take (s.disk.contents i).length)
    rw [List.take_length]
    exact hwhole
  · rw [hsize', hcomplete]
    show _ = signals isSpace ((s.disk.contents i).take (s.disk.contents i).length)
    rw [List.take_length]

/-- A notification of the file completes the file at the path. -/
theorem good_fileChanged (h : s.Good isSpace first) (hc : Careful first s .fileChanged) :
    (s.step isSpace .fileChanged).Good isSpace first ∧
      ∀ i, s.disk.path = some i → first ≤ i →
        (s.step isSpace .fileChanged).Complete isSpace i := by
  obtain ⟨hinode, hwatched, hnone⟩ := @watchedFileChanged_keeps isSpace s.watcher s.disk
  have hboth : ∀ i, s.disk.path = some i → first ≤ i →
      (i = s.watcher.inode → (s.step isSpace .fileChanged).Reads isSpace i) ∧
        (i ≠ s.watcher.inode → (s.step isSpace .fileChanged).emittedOf i = []) ∧
        (s.step isSpace .fileChanged).Complete isSpace i := by
    intro i hp hi
    have hcareful := hc i hp hi
    by_cases hown : i = s.watcher.inode
    · simp only [if_pos hown] at hcareful
      have hreads : s.Reads isSpace i := hown ▸ h.reading (hown ▸ hp) (hown ▸ hi)
      have hscan : s.step isSpace .fileChanged = s.handled (s.watcher.scan isSpace s.disk) := by
        simp only [State.step, watchedFileChanged_eq hp hown.symm hreads.currSize]
      obtain ⟨hreads', hcomplete⟩ := reads_scan hreads hp (h.text i hi) hcareful.1 hcareful.2
      rw [hscan]
      exact ⟨fun _ => hreads', fun hne => absurd hown hne, hcomplete⟩
    · simp only [if_neg hown] at hcareful
      have hnothing : (s.step isSpace .fileChanged).emittedOf i = [] := by
        show (s.handled (s.watcher.watchedFileChanged isSpace s.disk)).emittedOf i = []
        rw [emittedOf_handled, watchedFileChanged_empty hp hcareful, h.waiting i hp hown hi]
        simp
      refine ⟨fun he => absurd he hown, fun _ => hnothing, ?_⟩
      show _ = signals isSpace (s.disk.contents i)
      rw [hnothing, hcareful]
      rfl
  refine ⟨good_handled h ?_ ?_ hnone ?_, fun i hp hi => (hboth i hp hi).2.2⟩
  · rw [hinode]
    exact h.inode_lt
  · rw [hinode, hwatched]
    exact h.watched
  · intro i hp hi
    obtain ⟨hreads, hwaits, hcomplete⟩ := hboth i hp hi
    rw [hinode]
    exact ⟨hreads, hwaits, hcomplete ▸ List.prefix_rfl⟩

theorem good_dirChanged (h : s.Good isSpace first) (hc : Careful first s .dirChanged) :
    (s.step isSpace .dirChanged).Good isSpace first := by
  cases hdir : s.disk.path.isSome && !s.watcher.watched with
  | false =>
    -- nothing is done
    have hstep : s.step isSpace .dirChanged = s := by
      simp [State.step, Watcher.watchedDirChanged, hdir, State.handled]
    rwa [hstep]
  | true =>
    rw [Bool.and_eq_true, Option.isSome_iff_exists, Bool.not_eq_true'] at hdir
    obtain ⟨⟨i, hpath⟩, hunwatched⟩ := hdir
    have hgetINode : s.disk.getINode = i := by simp [Disk.getINode, hpath]
    let w : Watcher := { currSize := 0, inode := i, watched := true }
    have hstep : s.step isSpace .dirChanged = s.handled (w.scan isSpace s.disk) := by
      simp [State.step, Watcher.watchedDirChanged, hpath, hunwatched, hgetINode, w]
    have hne : i ≠ s.watcher.inode := by
      intro he
      have hwatched := h.watched.mpr (he ▸ hpath)
      rw [hunwatched] at hwatched
      exact absurd hwatched (by decide)
    obtain ⟨hinode, hwatched, hnone⟩ := @scan_keeps isSpace w s.disk
    rw [hstep]
    refine good_handled h ?_ ?_ hnone ?_
    · rw [hinode]
      exact h.path_lt i hpath
    · rw [hinode, hwatched]
      exact iff_of_true rfl hpath
    · intro j hp hj
      obtain rfl : i = j := Option.some.inj (hpath.symm.trans hp)
      obtain ⟨hsize, hline⟩ := hc i hp hj hunwatched
      -- the file has been read up to its start
      have hstart : { s with watcher := w }.Reads isSpace i := by
        refine ⟨Nat.zero_le _, .inl rfl, ?_⟩
        exact h.waiting i hp hne hj
      obtain ⟨hreads, hcomplete⟩ := reads_scan hstart hp (h.text i hj) hsize hline
      refine ⟨fun _ => hreads, fun hne' => absurd hinode.symm hne', ?_⟩
      exact hcomplete ▸ List.prefix_rfl

/-! ## Runs -/

/-- A careful step keeps what holds in careful runs. -/
theorem step_good (h : s.Good isSpace first)
    (hwhole : ∀ bytes, e = .append bytes → WholeLines bytes) (hc : Careful first s e) :
    (s.step isSpace e).Good isSpace first := by
  cases e with
  | renameAway => exact good_renameAway h
  | create => exact good_create h
  | append bytes => exact good_append h (hwhole bytes rfl) hc
  | fileChanged => exact (good_fileChanged h hc).1
  | dirChanged => exact good_dirChanged h hc

theorem run_good (h : s.Good isSpace first)
    (hwhole : ∀ bytes, .append bytes ∈ es → WholeLines bytes)
    (hc : CarefulRun isSpace first s es) : (s.run isSpace es).Good isSpace first := by
  induction es generalizing s with
  | nil => exact h
  | cons e es ih =>
    obtain ⟨hstep, hrest⟩ := hc
    have hgood : (s.step isSpace e).Good isSpace first :=
      step_good h (fun bytes he => hwhole bytes (he ▸ List.mem_cons_self)) hstep
    exact ih hgood (fun bytes hb => hwhole bytes (List.mem_cons_of_mem e hb)) hrest

/-- Inodes that were not used name nothing. -/
structure Disk.WF (d : Disk) : Prop where
  path_lt : ∀ i, d.path = some i → i < d.next
  unused : ∀ i, d.next ≤ i → d.contents i = []

theorem start_good {d : Disk} (hd : d.WF) (hpath : d.path = some i) :
    (State.start d).Good isSpace d.next := by
  have hinode : (State.start d).watcher.inode = i := (start_caughtUp hpath).inode
  have hi : i < d.next := hd.path_lt i hpath
  refine ⟨Nat.le_refl _, hd.path_lt, hinode ▸ hi, hd.unused, ?_, ?_, ?_, fun _ _ _ _ => rfl,
    fun _ _ => List.nil_prefix⟩
  · intro j hj
    show WholeLines (d.contents j) ∧ 0 ∉ d.contents j
    rw [hd.unused j hj]
    exact ⟨.inl rfl, List.not_mem_nil⟩
  · rw [hinode]
    exact iff_of_true rfl hpath
  · intro _ hf
    rw [hinode] at hf
    exact absurd hf (Nat.not_le_of_lt hi)

/-- A notification is handled. -/
def Event.isNotification (e : Event) : Prop := e = .fileChanged ∨ e = .dirChanged

theorem notification_disk (he : e.isNotification) : (s.step isSpace e).disk = s.disk := by
  rcases he with rfl | rfl
  · rfl
  · rfl

theorem notifications_disk (hes : ∀ e ∈ es, e.isNotification) :
    (s.run isSpace es).disk = s.disk := by
  induction es generalizing s with
  | nil => rfl
  | cons e es ih =>
    obtain ⟨he, hes'⟩ := List.forall_mem_cons.mp hes
    exact (ih hes').trans (notification_disk he)

/-- What was emitted stays emitted. -/
theorem notification_emitted (he : e.isNotification) (i : Nat) :
    s.emittedOf i <+: (s.step isSpace e).emittedOf i := by
  have hprefix : ∀ r, s.emittedOf i <+: (s.handled r).emittedOf i := by
    intro r
    rw [emittedOf_handled]
    split
    · exact List.prefix_append ..
    · exact List.prefix_rfl
  rcases he with rfl | rfl
  · exact hprefix _
  · exact hprefix _

/-- A complete file stays complete while nothing is written. -/
theorem complete_stays (h' : (s.step isSpace e).Good isSpace first) (he : e.isNotification)
    (hi : first ≤ i) (hcomplete : s.Complete isSpace i) :
    (s.step isSpace e).Complete isSpace i := by
  have honce := h'.once i hi
  have hmore := @notification_emitted isSpace s e he i
  unfold State.Complete at *
  rw [notification_disk he] at honce ⊢
  rw [hcomplete] at hmore
  exact honce.eq_of_length_le hmore.length_le

/-- Once the file at the path has been notified of, and nothing is written, it is complete. -/
theorem run_complete (h : s.Good isSpace first) (hes : ∀ e ∈ es, e.isNotification)
    (hc : CarefulRun isSpace first s es) (hpath : s.disk.path = some i) (hi : first ≤ i)
    (hnotified : s.Complete isSpace i ∨ .fileChanged ∈ es) :
    (s.run isSpace es).Complete isSpace i := by
  induction es generalizing s with
  | nil => exact hnotified.resolve_right List.not_mem_nil
  | cons e es ih =>
    obtain ⟨hstep, hrest⟩ := hc
    obtain ⟨he, hes'⟩ := List.forall_mem_cons.mp hes
    have hgood : (s.step isSpace e).Good isSpace first := by
      apply step_good h _ hstep
      intro bytes heq
      rcases he with rfl | rfl
      · exact absurd heq (by simp)
      · exact absurd heq (by simp)
    have hpath' : (s.step isSpace e).disk.path = some i := by
      rw [notification_disk he]
      exact hpath
    apply ih hgood hes' hrest hpath'
    rcases hnotified with hcomplete | hmem
    · exact .inl (complete_stays hgood he hi hcomplete)
    · rcases List.mem_cons.mp hmem with heq | hmem
      · subst heq
        exact .inl ((good_fileChanged h hstep).2 i hpath hi)
      · exact .inr hmem

theorem run_append (xs ys : List Event) :
    s.run isSpace (xs ++ ys) = (s.run isSpace xs).run isSpace ys := List.foldl_append ..

theorem carefulRun_append {xs ys : List Event} (h : CarefulRun isSpace first s (xs ++ ys)) :
    CarefulRun isSpace first s xs ∧ CarefulRun isSpace first (s.run isSpace xs) ys := by
  induction xs generalizing s with
  | nil => exact ⟨trivial, h⟩
  | cons e xs ih =>
    obtain ⟨hstep, hrest⟩ := h
    obtain ⟨hxs, hys⟩ := ih hrest
    exact ⟨⟨hstep, hxs⟩, hys⟩

/-- In a careful run, what was emitted of a new file is its first lines, each once and in order;
and once a notification of the file at the path has been handled after the last event on the
disk, whether or not one of its directory has, it is all its lines. -/
theorem rotation (isSpace : Char → Bool) {d : Disk} (hd : d.WF) {old : Nat}
    (hpath : d.path = some old) {es : List Event}
    (hwhole : ∀ bytes, .append bytes ∈ es → WholeLines bytes)
    (hcareful : CarefulRun isSpace d.next (State.start d) es) :
    let s := (State.start d).run isSpace es
    ∀ i, d.next ≤ i →
      s.emittedOf i <+: signals isSpace (s.disk.contents i) ∧
      ∀ pre post, es = pre ++ post → .fileChanged ∈ post → (∀ e ∈ post, e.isNotification) →
        s.disk.path = some i → s.emittedOf i = signals isSpace (s.disk.contents i) := by
  have hstart := @start_good isSpace old d hd hpath
  intro s i hi
  refine ⟨(run_good hstart hwhole hcareful).once i hi, ?_⟩
  intro pre post hes hnotified hpost hp
  subst hes
  obtain ⟨hpre, hcareful'⟩ := carefulRun_append hcareful
  have hgood := run_good hstart
    (fun bytes hb => hwhole bytes (List.mem_append_left post hb)) hpre
  have hs : s = ((State.start d).run isSpace pre).run isSpace post := run_append ..
  rw [hs] at hp ⊢
  rw [notifications_disk hpost] at hp
  exact run_complete hgood hpost hcareful' hp hi (.inr hnotified)

/-- A rotation with the directory noticed before the file. -/
theorem rotation_noticed :
    let events : List Event := [.renameAway, .create, .append [97, 10], .dirChanged,
      .append [98, 10], .fileChanged]
    let s := (State.start emptyFile).run Char.isWhitespace events
    ∀ i, 2 ≤ i →
      s.emittedOf i <+: signals Char.isWhitespace (s.disk.contents i) ∧
      ∀ pre post, events = pre ++ post → .fileChanged ∈ post →
        (∀ e ∈ post, e.isNotification) → s.disk.path = some i →
        s.emittedOf i = signals Char.isWhitespace (s.disk.contents i) := by
  refine rotation Char.isWhitespace (d := emptyFile) ⟨by simp [emptyFile], fun _ _ => rfl⟩ rfl
    ?_ ⟨fun _ _ _ => trivial, fun _ _ _ => trivial,
      fun _ _ _ => (by decide : 0 ∉ ([97, 10] : Bytes)), ?_,
      fun _ _ _ => (by decide : 0 ∉ ([98, 10] : Bytes)), ?_, trivial⟩
  · intro bytes hmem
    have hbytes : bytes = [97, 10] ∨ bytes = [98, 10] := by simpa using hmem
    rcases hbytes with rfl | rfl
    · exact .inr rfl
    · exact .inr rfl
  · intro i hp _ _
    obtain rfl : 2 = i := Option.some.inj hp
    decide +kernel
  · intro i hp _
    obtain rfl : 2 = i := Option.some.inj hp
    decide +kernel

/-- The new file is there and has a line when the notification of the old one is handled. -/
theorem emitted_twice :
    let s := (State.start emptyFile).run Char.isWhitespace
      [.renameAway, .create, .append [97, 10], .fileChanged, .dirChanged]
    ¬ s.emittedOf 2 <+: signals Char.isWhitespace (s.disk.contents 2) := by
  decide +kernel

end WifiGateway.FileWatcher
