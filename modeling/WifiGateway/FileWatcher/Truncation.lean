import WifiGateway.FileWatcher.Rotation

/-!
# Truncation

The file stays at its path, whole lines are appended to it, and now and then it is truncated
("in case someone goes `>kern.log`"). `isFileNewer` tells a truncated file from its size alone,
so what is assumed of a run is that a file that was truncated is found shorter than `currSize`
(or that `currSize` is 0).

The text that is in the file and was not read yet is followed through the run (`Tracks`): what is
appended is added to it, a truncation drops it, and `watchedFileChanged` emits it, line by line
(`fileChanged_tracks`). What a run emits is then read off its events (`delivered`).
-/

namespace WifiGateway.FileWatcher

variable {isSpace : Char → Bool} {s : State} {i : Nat} {cut : Bool} {pending bytes : Bytes}

/-- What happens to a file that stays at its path. -/
inductive Change
  | append (bytes : Bytes)
  /-- The file is made empty. -/
  | truncate
  /-- A `fileChanged` notification is handled. -/
  | fileChanged
  /-- A `directoryChanged` notification is handled. -/
  | dirChanged
  deriving DecidableEq

/-- One change. -/
def State.change (isSpace : Char → Bool) (s : State) : Change → State
  | .append bytes => s.step isSpace (.append bytes)
  | .truncate =>
    match s.disk.path with
    | none => s
    | some i => { s with disk := { s.disk with contents := Function.update s.disk.contents i [] } }
  | .fileChanged => s.step isSpace .fileChanged
  | .dirChanged => s.step isSpace .dirChanged

/-- Changes one after the other. -/
def State.changes (isSpace : Char → Bool) (s : State) (es : List Change) : State :=
  es.foldl (State.change isSpace) s

/-- Whole lines that one `readLine` each takes in full. -/
structure Appendable (bytes : Bytes) : Prop where
  whole : WholeLines bytes
  nul : 0 ∉ bytes
  short : ∀ line ∈ Lines.lines newline bytes, line.length ≤ 1024

/-- Whether the file was truncated after the last `fileChanged`. -/
def Change.truncated (before : Bool) : Change → Bool
  | .truncate => true
  | .fileChanged => false
  | .append _ | .dirChanged => before

/-- The file is below 4 GiB all along, and when a notification is handled after a truncation,
the size of the file tells it. -/
def Telling (isSpace : Char → Bool) : Bool → State → List Change → Prop
  | _, s, [] => s.disk.size < UInt32.size
  | cut, s, e :: es =>
    s.disk.size < UInt32.size ∧
      (e = .fileChanged → cut = true →
        s.disk.size < s.watcher.currSize.toNat ∨ s.watcher.currSize = 0) ∧
      Telling isSpace (e.truncated cut) (s.change isSpace e) es

instance Telling.decidable (isSpace : Char → Bool) :
    ∀ cut s es, Decidable (Telling isSpace cut s es)
  | _, s, [] => inferInstanceAs (Decidable (s.disk.size < UInt32.size))
  | cut, s, e :: es =>
    have := Telling.decidable isSpace (e.truncated cut) (s.change isSpace e) es
    inferInstanceAs (Decidable (s.disk.size < UInt32.size ∧
      (e = .fileChanged → cut = true →
        s.disk.size < s.watcher.currSize.toNat ∨ s.watcher.currSize = 0) ∧
      Telling isSpace (e.truncated cut) (s.change isSpace e) es))

/-- What is in the file now is still there when a notification is handled. -/
def noticed : List Change → Bool
  | [] => false
  | .fileChanged :: _ => true
  | .truncate :: _ => false
  | .append _ :: es | .dirChanged :: es => noticed es

/-- What is appended in a run and is in the file when a notification is handled. -/
def delivered : List Change → List Bytes
  | [] => []
  | .append bytes :: es => if noticed es then bytes :: delivered es else delivered es
  | .truncate :: es | .fileChanged :: es | .dirChanged :: es => delivered es

/-- `pending` is what is in the file and was not emitted. -/
structure State.Tracks (s : State) (i : Nat) (cut : Bool) (pending : Bytes) : Prop where
  path : s.disk.path = some i
  inode : s.watcher.inode = i
  watched : s.watcher.watched = true
  text : Appendable pending
  reading : cut = false → s.watcher.currSize.toNat ≤ (s.disk.contents i).length ∧
    (s.disk.contents i).drop s.watcher.currSize.toNat = pending
  again : cut = true → s.disk.contents i = pending

/-- What is pending after a change. -/
def Change.leaves (pending : Bytes) : Change → Bytes
  | .append bytes => pending ++ bytes
  | .truncate | .fileChanged => []
  | .dirChanged => pending

/-- What a change reads. -/
def Change.reads (pending : Bytes) : Change → Bytes
  | .fileChanged => pending
  | .append _ | .truncate | .dirChanged => []

/-! ## Texts -/

theorem Appendable.nil : Appendable [] where
  whole := .inl rfl
  nul := List.not_mem_nil
  short := fun _ hl => absurd hl List.not_mem_nil

theorem Appendable.append (hp : Appendable pending) (hb : Appendable bytes) :
    Appendable (pending ++ bytes) where
  whole := hp.whole.append hb.whole
  nul := by
    rw [List.mem_append, not_or]
    exact ⟨hp.nul, hb.nul⟩
  short := by
    rw [Lines.lines_append hp.whole]
    intro line hline
    rcases List.mem_append.mp hline with hline | hline
    · exact hp.short line hline
    · exact hb.short line hline

/-- The first `readLine` takes a whole line too. -/
theorem Appendable.scanned (hp : Appendable pending) :
    (Lines.scanned newline 1024 pending).map (signal isSpace) = signals isSpace pending := by
  rw [Lines.scanned_eq_lines]
  · rfl
  · by_cases hnil : pending = []
    · rw [hnil]
      show 0 ≤ 1024
      omega
    · apply hp.short
      rw [Lines.lines_eq hnil]
      exact List.mem_cons_self

/-! ## One step -/

/-- The signals of the run so far are followed by those of `lines`. -/
def State.EmitsNext (s s' : State) (lines : List String) : Prop :=
  s'.emitted.map Prod.snd = s.emitted.map Prod.snd ++ lines

/-- `watchedFileChanged` emits what is pending, and goes to the end. -/
theorem watchedFileChanged_tracks (h : s.Tracks i cut pending)
    (htell : cut = true →
      s.disk.size < s.watcher.currSize.toNat ∨ s.watcher.currSize = 0) :
    s.watcher.watchedFileChanged isSpace s.disk =
      ({ s.watcher with currSize := UInt32.ofNat (s.disk.contents i).length },
        signals isSpace pending) := by
  have hsize : s.disk.size = (s.disk.contents i).length := by simp [Disk.size, h.path]
  -- from the start of the file, or from where the last scan ended
  have hscan : ∀ w : Watcher, w.currSize.toNat ≤ (s.disk.contents i).length →
      (s.disk.contents i).drop w.currSize.toNat = pending →
      w.scan isSpace s.disk =
        ({ w with currSize := UInt32.ofNat (s.disk.contents i).length },
          signals isSpace pending) := by
    intro w hle hdrop
    have hnul : 0 ∉ (s.disk.contents i).drop w.currSize.toNat := by
      rw [hdrop]
      exact h.text.nul
    rw [scan_eq h.path hle hnul, hdrop, h.text.scanned]
  cases cut with
  | false =>
    obtain ⟨hle, hdrop⟩ := h.reading rfl
    rw [watchedFileChanged_eq h.path h.inode hle]
    exact hscan s.watcher hle hdrop
  | true =>
    have hall : s.disk.contents i = pending := h.again rfl
    rcases htell rfl with hshort | hzero
    · have hnew : s.watcher.isFileNewer s.disk = true := by
        simp [Watcher.isFileNewer, hshort]
      rw [Watcher.watchedFileChanged, hnew, if_pos rfl]
      exact hscan { s.watcher with currSize := 0 } (Nat.zero_le _) hall
    · have hle : s.watcher.currSize.toNat ≤ (s.disk.contents i).length := by
        rw [hzero]
        exact Nat.zero_le _
      have hdrop : (s.disk.contents i).drop s.watcher.currSize.toNat = pending := by
        rw [hzero]
        exact hall
      rw [watchedFileChanged_eq h.path h.inode hle]
      exact hscan s.watcher hle hdrop

theorem append_tracks (h : s.Tracks i cut pending) (hb : Appendable bytes) :
    (s.change isSpace (.append bytes)).Tracks i cut (pending ++ bytes) ∧
      s.EmitsNext (s.change isSpace (.append bytes)) [] := by
  have hstep : s.change isSpace (.append bytes) = { s with disk := { s.disk with
      contents := Function.update s.disk.contents i (s.disk.contents i ++ bytes) } } := by
    simp only [State.change, State.step, h.path]
  have hcontents : Function.update s.disk.contents i (s.disk.contents i ++ bytes) i =
      s.disk.contents i ++ bytes := Function.update_self ..
  rw [hstep]
  refine ⟨⟨h.path, h.inode, h.watched, h.text.append hb, ?_, ?_⟩, (List.append_nil _).symm⟩
  · intro ht
    obtain ⟨hle, hdrop⟩ := h.reading ht
    simp only [hcontents, List.length_append]
    refine ⟨by omega, ?_⟩
    rw [List.drop_append_of_le_length hle, hdrop]
  · intro ht
    rw [← h.again ht]
    exact hcontents

theorem truncate_tracks (h : s.Tracks i cut pending) :
    (s.change isSpace .truncate).Tracks i true [] ∧
      s.EmitsNext (s.change isSpace .truncate) [] := by
  have hstep : s.change isSpace .truncate =
      { s with disk := { s.disk with contents := Function.update s.disk.contents i [] } } := by
    simp only [State.change, h.path]
  rw [hstep]
  refine ⟨⟨h.path, h.inode, h.watched, .nil, fun ht => absurd ht (by simp), ?_⟩,
    (List.append_nil _).symm⟩
  intro _
  exact Function.update_self ..

theorem fileChanged_tracks (h : s.Tracks i cut pending)
    (hsize : s.disk.size < UInt32.size)
    (htell : cut = true →
      s.disk.size < s.watcher.currSize.toNat ∨ s.watcher.currSize = 0) :
    let s' := s.change isSpace .fileChanged
    s'.Tracks i false [] ∧ s.EmitsNext s' (signals isSpace pending) ∧
      s'.watcher.currSize.toNat = s'.disk.size := by
  have hlen : s.disk.size = (s.disk.contents i).length := by simp [Disk.size, h.path]
  have hcurr : (UInt32.ofNat (s.disk.contents i).length).toNat = (s.disk.contents i).length :=
    UInt32.toNat_ofNat_of_lt' (hlen ▸ hsize)
  have hstep : s.change isSpace .fileChanged =
      s.handled ({ s.watcher with currSize := UInt32.ofNat (s.disk.contents i).length },
        signals isSpace pending) := by
    simp only [State.change, State.step, watchedFileChanged_tracks h htell]
  intro s'
  have hs' : s' = _ := hstep
  rw [hs']
  refine ⟨⟨h.path, h.inode, h.watched, .nil, ?_, fun ht => absurd ht (by simp)⟩, ?_, ?_⟩
  · intro _
    simp only [State.handled, hcurr]
    exact ⟨Nat.le_refl _, List.drop_length⟩
  · simp [State.EmitsNext, State.handled, Function.comp_def]
  · simp only [State.handled, hcurr]
    exact hlen.symm

/-- The path is watched, so `watchedDirChanged` has nothing to do. -/
theorem dirChanged_tracks (h : s.Tracks i cut pending) :
    s.change isSpace .dirChanged = s := by
  simp [State.change, State.step, Watcher.watchedDirChanged, h.watched, State.handled]

/-- What a change makes of the pending text, and of the signals. -/
theorem change_tracks (h : s.Tracks i cut pending) {e : Change}
    (happend : ∀ bytes, e = .append bytes → Appendable bytes) (hsize : s.disk.size < UInt32.size)
    (htell : e = .fileChanged → cut = true →
      s.disk.size < s.watcher.currSize.toNat ∨ s.watcher.currSize = 0) :
    (s.change isSpace e).Tracks i (e.truncated cut) (e.leaves pending) ∧
      s.EmitsNext (s.change isSpace e) (signals isSpace (e.reads pending)) := by
  cases e with
  | append bytes => exact append_tracks h (happend bytes rfl)
  | truncate => exact truncate_tracks h
  | fileChanged =>
    obtain ⟨htracks, hemits, -⟩ :=
      @fileChanged_tracks isSpace s i cut pending h hsize (htell rfl)
    exact ⟨htracks, hemits⟩
  | dirChanged =>
    have hsame := @dirChanged_tracks isSpace s i cut pending h
    rw [hsame]
    exact ⟨h, (List.append_nil _).symm⟩

/-! ## The run -/

theorem Telling.size {es : List Change} (h : Telling isSpace cut s es) :
    s.disk.size < UInt32.size := by
  cases es with
  | nil => exact h
  | cons e es => exact h.1

theorem changes_append (xs ys : List Change) :
    s.changes isSpace (xs ++ ys) = (s.changes isSpace xs).changes isSpace ys :=
  List.foldl_append ..

/-- What is read now and what is delivered later, if it is noticed, is what is delivered. -/
theorem delivered_cons (hp : Appendable pending) (e : Change) (es : List Change) :
    signals isSpace (e.reads pending) ++
        ((if noticed es then signals isSpace (e.leaves pending) else []) ++
          (delivered es).flatMap (signals isSpace)) =
      (if noticed (e :: es) then signals isSpace pending else []) ++
        (delivered (e :: es)).flatMap (signals isSpace) := by
  have hnil : signals isSpace [] = [] := rfl
  cases e with
  | append bytes =>
    rw [Change.reads, Change.leaves, signals_append hp.whole, noticed, delivered]
    cases noticed es with
    | false => simp [hnil]
    | true => simp [hnil]
  | truncate =>
    rw [Change.reads, Change.leaves, noticed, delivered, hnil]
    simp
  | fileChanged =>
    rw [Change.reads, Change.leaves, noticed, delivered, hnil]
    simp
  | dirChanged =>
    rw [Change.reads, Change.leaves, noticed, delivered]
    simp [hnil]

/-- What is pending is emitted if it is noticed, and then what is delivered. -/
theorem changes_emit (h : s.Tracks i cut pending) {es : List Change}
    (happend : ∀ bytes, .append bytes ∈ es → Appendable bytes)
    (htell : Telling isSpace cut s es) :
    s.EmitsNext (s.changes isSpace es)
      ((if noticed es then signals isSpace pending else []) ++
        (delivered es).flatMap (signals isSpace)) := by
  induction es generalizing s cut pending with
  | nil => exact (List.append_nil _).symm
  | cons e es ih =>
    obtain ⟨hsize, hnow, hrest⟩ := htell
    have happend' : ∀ bytes, .append bytes ∈ es → Appendable bytes :=
      fun bytes hmem => happend bytes (List.mem_cons_of_mem e hmem)
    obtain ⟨htracks, hemits⟩ := @change_tracks isSpace s i cut pending h e
      (fun bytes he => happend bytes (he ▸ List.mem_cons_self)) hsize hnow
    have hall := ih htracks happend' hrest
    show (State.changes isSpace (s.change isSpace e) es).emitted.map Prod.snd = _
    rw [hall, hemits, List.append_assoc, delivered_cons h.text]

/-- The watcher keeps track of the file up to any point of the run. -/
theorem changes_track (h : s.Tracks i cut pending) {pre post : List Change}
    (happend : ∀ bytes, .append bytes ∈ pre ++ post → Appendable bytes)
    (htell : Telling isSpace cut s (pre ++ post)) :
    ∃ cut' pending', (s.changes isSpace pre).Tracks i cut' pending' ∧
      Telling isSpace cut' (s.changes isSpace pre) post := by
  induction pre generalizing s cut pending with
  | nil => exact ⟨cut, pending, h, htell⟩
  | cons e pre ih =>
    obtain ⟨hsize, hnow, hrest⟩ := htell
    have happend' : ∀ bytes, .append bytes ∈ pre ++ post → Appendable bytes :=
      fun bytes hmem => happend bytes (List.mem_cons_of_mem e hmem)
    obtain ⟨htracks, -⟩ := @change_tracks isSpace s i cut pending h e
      (fun bytes he => happend bytes (he ▸ List.mem_cons_self)) hsize hnow
    exact ih htracks happend' hrest

theorem start_tracks {d : Disk} (hpath : d.path = some i) (hsize : d.size < UInt32.size) :
    (State.start d).Tracks i false [] := by
  have hlen : d.size = (d.contents i).length := by simp [Disk.size, hpath]
  have hcaught := start_caughtUp hpath
  refine ⟨hpath, hcaught.inode, rfl, .nil, ?_, fun ht => absurd ht (by simp)⟩
  intro _
  rw [hcaught.currSize]
  have hcurr : (UInt32.ofNat (d.contents i).length).toNat = (d.contents i).length :=
    UInt32.toNat_ofNat_of_lt' (hlen ▸ hsize)
  show (UInt32.ofNat (d.contents i).length).toNat ≤ (d.contents i).length ∧
    (d.contents i).drop (UInt32.ofNat (d.contents i).length).toNat = []
  rw [hcurr]
  exact ⟨Nat.le_refl _, List.drop_length⟩

/-- What is emitted is the lines of what was delivered, each once and in order, and every
notification leaves `currSize` at the end of the file. -/
theorem exactly_once (isSpace : Char → Bool) {d : Disk} (hpath : d.path = some i)
    {es : List Change} (happend : ∀ bytes, .append bytes ∈ es → Appendable bytes)
    (htell : Telling isSpace false (State.start d) es) :
    ((State.start d).changes isSpace es).emitted.map Prod.snd =
        (delivered es).flatMap (signals isSpace) ∧
      ∀ pre post, es = pre ++ .fileChanged :: post →
        let s := (State.start d).changes isSpace (pre ++ [.fileChanged])
        s.watcher.currSize.toNat = s.disk.size := by
  have hstart := start_tracks hpath htell.size
  constructor
  · refine (changes_emit hstart happend htell).trans ?_
    cases noticed es with
    | false => rfl
    | true => rfl
  · rintro pre post rfl
    obtain ⟨cut, pending, htracks, hsize, hnow, -⟩ := changes_track hstart happend htell
    obtain ⟨-, -, hend⟩ := fileChanged_tracks htracks hsize (hnow rfl)
    rw [changes_append]
    exact hend

/-- Two lines are read, the file is truncated, and a shorter line is written. -/
theorem exactly_once_truncated :
    let events : List Change := [.append [97, 97, 10, 98, 10], .dirChanged, .fileChanged, .truncate,
      .append [99, 10], .fileChanged, .fileChanged]
    ((State.start emptyFile).changes Char.isWhitespace events).emitted.map Prod.snd =
        (delivered events).flatMap (signals Char.isWhitespace) ∧
      ∀ pre post, events = pre ++ .fileChanged :: post →
        let s := (State.start emptyFile).changes Char.isWhitespace (pre ++ [.fileChanged])
        s.watcher.currSize.toNat = s.disk.size := by
  refine exactly_once Char.isWhitespace (d := emptyFile) rfl ?_ ?_
  · intro bytes hmem
    have hbytes : bytes = [97, 97, 10, 98, 10] ∨ bytes = [99, 10] := by simpa using hmem
    rcases hbytes with rfl | rfl
    · exact ⟨.inr rfl, by decide, by decide⟩
    · exact ⟨.inr rfl, by decide, by decide⟩
  · decide +kernel

end WifiGateway.FileWatcher
