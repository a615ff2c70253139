import Mathlib.Data.List.DropRight
import Mathlib.Logic.Function.Basic
import WifiGateway.Text.Lines

/-!
# The file watcher

`filewatcher.cpp`: the lines of one file, identified by its path, are emitted as they are
written. The watcher keeps a position in the file and the inode of the file it was reading;
`QFileSystemWatcher` notifies it of changes of the file and of its directory.

The disk holds the contents of every file by its inode, and the path names at most one of
them. What the code around the watcher does is a list of events: files are renamed away,
created and appended to, and notifications are handled. A signal is recorded with the inode
of the file it was read from, which the watcher does not see.
-/

namespace WifiGateway.FileWatcher

abbrev Bytes := List UInt8

def newline : UInt8 := 10

/-! ## Lines as they are emitted -/

/-- `QString(const QByteArray &)`: Latin-1, up to the first NUL. -/
def toQString (line : Bytes) : List Char :=
  (line.takeWhile (· ≠ 0)).map fun b => Char.ofNat b.toNat

/-- `QString::trimmed`. -/
def trimmed (isSpace : Char → Bool) (s : List Char) : String :=
  String.ofList ((s.dropWhile isSpace).rdropWhile isSpace)

/-- What is emitted for a line. -/
def signal (isSpace : Char → Bool) (line : Bytes) : String := trimmed isSpace (toQString line)

/-- `while(line.size() > 0)` in `scan`: `line` has been read and `rest` is left. What is
emitted, and what is left at the end. -/
def scanLoop (isSpace : Char → Bool) (line rest : Bytes) : List String × Bytes :=
  if toQString line = [] then ([], rest)
  else
    let read := Lines.takeLine newline rest
    let done := scanLoop isSpace read.1 read.2
    (signal isSpace line :: done.1, done.2)
termination_by line.length + rest.length
decreasing_by
  have hline : line ≠ [] := by
    intro h
    subst h
    contradiction
  have hpos := List.length_pos_iff.mpr hline
  have hrest := congrArg List.length (Lines.takeLine_append newline rest)
  rw [List.length_append] at hrest
  omega

/-! ## The watcher -/

/-- What is on the disk. -/
structure Disk where
  /-- The inode of the file at the watched path. -/
  path : Option Nat
  contents : Nat → Bytes
  /-- No inode from here on has been used. -/
  next : Nat

/-- The fields of a `FileWatcher`. -/
structure Watcher where
  currSize : UInt32
  inode : Nat
  /-- The path is in `watcher.files()`. -/
  watched : Bool
  deriving DecidableEq, Repr

/-- `getINode`. -/
def Disk.getINode (d : Disk) : Nat := d.path.getD 0

/-- `watchedFile.size()`. -/
def Disk.size (d : Disk) : Nat :=
  match d.path with
  | none => 0
  | some i => (d.contents i).length

/-- The constructor, with the file there. -/
def Watcher.construct (d : Disk) : Watcher where
  currSize := UInt32.ofNat d.size
  inode := d.getINode
  watched := true

variable (isSpace : Char → Bool)

/-- `FileWatcher::scan`. -/
def Watcher.scan (w : Watcher) (d : Disk) : Watcher × List String :=
  match d.path with
  -- the file cannot be opened
  | none => (w, [])
  | some i =>
    let rest := (d.contents i).drop w.currSize.toNat
    let read := Lines.readLine newline 1024 rest
    let done := scanLoop isSpace read.1 read.2
    -- `currSize = watchedFile.pos()`
    ({ w with currSize := UInt32.ofNat (w.currSize.toNat + (rest.length - done.2.length)) }, done.1)

/-- `FileWatcher::isFileNewer`. -/
def Watcher.isFileNewer (w : Watcher) (d : Disk) : Bool :=
  d.getINode != w.inode || d.size < w.currSize.toNat

/-- `FileWatcher::watchedFileChanged`. -/
def Watcher.watchedFileChanged (w : Watcher) (d : Disk) : Watcher × List String :=
  if w.isFileNewer d then { w with currSize := 0 }.scan isSpace d else w.scan isSpace d

/-- `FileWatcher::watchedDirChanged`. -/
def Watcher.watchedDirChanged (w : Watcher) (d : Disk) : Watcher × List String :=
  if d.path.isSome && !w.watched then
    { currSize := 0, inode := d.getINode, watched := true : Watcher }.scan isSpace d
  else (w, [])

/-! ## Runs -/

/-- The watcher, the disk, and what was emitted so far, each signal with the inode of the
file it was read from. -/
structure State where
  watcher : Watcher
  disk : Disk
  emitted : List (Nat × String)

/-- What happens. -/
inductive Event
  /-- The file is renamed, and Qt drops its path from the watch list. -/
  | renameAway
  /-- A file is created at the path. -/
  | create
  | append (bytes : Bytes)
  /-- A `fileChanged` notification is handled. -/
  | fileChanged
  /-- A `directoryChanged` notification is handled. -/
  | dirChanged
  deriving DecidableEq

/-- A handler has run. -/
def State.handled (s : State) (r : Watcher × List String) : State :=
  { s with
    watcher := r.1
    emitted := s.emitted ++ r.2.map fun line => (s.disk.getINode, line) }

/-- One event. -/
def State.step (s : State) : Event → State
  | .renameAway =>
    { s with
      disk := { s.disk with path := none }
      watcher := { s.watcher with watched := s.watcher.watched && s.disk.path.isNone } }
  | .create =>
    match s.disk.path with
    | some _ => s
    | none => { s with disk := { s.disk with path := some s.disk.next, next := s.disk.next + 1 } }
  | .append bytes =>
    match s.disk.path with
    | none => s
    | some i =>
      { s with
        disk := { s.disk with
          contents := Function.update s.disk.contents i (s.disk.contents i ++ bytes) } }
  | .fileChanged => s.handled (s.watcher.watchedFileChanged isSpace s.disk)
  | .dirChanged => s.handled (s.watcher.watchedDirChanged isSpace s.disk)

/-- Events one after the other. -/
def State.run (s : State) (es : List Event) : State := es.foldl (State.step isSpace) s

/-- The watcher has just been constructed. -/
def State.start (d : Disk) : State := ⟨.construct d, d, []⟩

/-- What was emitted of a file. -/
def State.emittedOf (s : State) (i : Nat) : List String :=
  (s.emitted.filter fun e => e.1 == i).map Prod.snd

/-! ## What a scan emits -/

variable {isSpace}

theorem toQString_ne_nil {line : Bytes} (hne : line ≠ []) (hnul : 0 ∉ line) :
    toQString line ≠ [] := by
  cases line with
  | nil => exact absurd rfl hne
  | cons b line =>
    have hb : b ≠ 0 := fun h => hnul (h ▸ List.mem_cons_self)
    simp [toQString, hb]

/-- Without NULs the loop emits the line it has and every line of the rest. -/
theorem scanLoop_eq (line rest : Bytes) (hline : 0 ∉ line) (hrest : 0 ∉ rest) :
    scanLoop isSpace line rest =
      if line = [] then ([], rest)
      else ((line :: Lines.lines newline rest).map (signal isSpace), []) := by
  fun_induction scanLoop isSpace line rest with
  | case1 line rest hstop =>
    have hnil : line = [] := by
      by_contra hne
      exact toQString_ne_nil hne hline hstop
    rw [if_pos hnil]
  | case2 line rest hgo read done ih =>
    have hne : line ≠ [] := by
      intro h
      exact hgo (by rw [h]; rfl)
    have hread : read.1 ++ read.2 = rest := Lines.takeLine_append newline rest
    have hnul : 0 ∉ read.1 ∧ 0 ∉ read.2 := by
      rw [← hread, List.mem_append, not_or] at hrest
      exact hrest
    have hdone : done = _ := ih hnul.1 hnul.2
    rw [if_neg hne, hdone, List.map_cons]
    by_cases hnil : rest = []
    · have hempty : read = ([], []) := by
        show Lines.takeLine newline rest = _
        rw [hnil]
        rfl
      rw [hempty, hnil]
      rfl
    · have hfirst : read.1 ≠ [] := Lines.takeLine_ne_nil hnil
      rw [if_neg hfirst, Lines.lines_eq hnil]
      rfl

/-- Without NULs a scan emits all that it reads, and reads to the end. -/
theorem scanLoop_readLine {rest : Bytes} (hnul : 0 ∉ rest) :
    scanLoop isSpace (Lines.readLine newline 1024 rest).1 (Lines.readLine newline 1024 rest).2 =
      ((Lines.scanned newline 1024 rest).map (signal isSpace), []) := by
  have hread := Lines.readLine_append newline 1024 rest
  have hnul' : 0 ∉ (Lines.readLine newline 1024 rest).1 ∧
      0 ∉ (Lines.readLine newline 1024 rest).2 := by
    rw [← hread, List.mem_append, not_or] at hnul
    exact hnul
  rw [scanLoop_eq _ _ hnul'.1 hnul'.2]
  by_cases hnil : rest = []
  · rw [hnil]
    rfl
  · have hfirst : (Lines.readLine newline 1024 rest).1 ≠ [] := by
      have hpiece : Lines.Piece newline ((Lines.takeLine newline rest).1.take 1024) :=
        (Lines.takeLine_piece hnil).take (by decide)
      obtain ⟨t, x, ht, -⟩ := hpiece
      unfold Lines.readLine
      rw [ht]
      simp
    rw [if_neg hfirst, Lines.scanned, if_neg hnil]

/-- A scan from a place in the file emits what is read from there on, and goes to the end. -/
theorem scan_eq {w : Watcher} {d : Disk} {i : Nat} (hpath : d.path = some i)
    (hcurr : w.currSize.toNat ≤ (d.contents i).length)
    (hnul : 0 ∉ (d.contents i).drop w.currSize.toNat) :
    w.scan isSpace d =
      ({ w with currSize := UInt32.ofNat (d.contents i).length },
        (Lines.scanned newline 1024 ((d.contents i).drop w.currSize.toNat)).map
          (signal isSpace)) := by
  have hend : w.currSize.toNat + (((d.contents i).drop w.currSize.toNat).length - 0) =
      (d.contents i).length := by
    rw [List.length_drop]
    omega
  unfold Watcher.scan
  simp only [hpath, scanLoop_readLine hnul, List.length_nil, hend]

/-- A notification of the file that is being read goes on from where the last scan ended. -/
theorem watchedFileChanged_eq {w : Watcher} {d : Disk} {i : Nat} (hpath : d.path = some i)
    (hinode : w.inode = i) (hcurr : w.currSize.toNat ≤ (d.contents i).length) :
    w.watchedFileChanged isSpace d = w.scan isSpace d := by
  have hsame : w.isFileNewer d = false := by
    simp [Watcher.isFileNewer, Disk.getINode, Disk.size, hpath, hinode, hcurr]
  rw [Watcher.watchedFileChanged, hsame]
  rfl

end WifiGateway.FileWatcher
