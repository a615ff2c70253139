import Mathlib.Data.List.Chain
import WifiGateway.FileWatcher.Batching

/-!
# The cursor

The position in the file is a 64-bit one in `QFile`, and `currSize`, an `unsigned int`, keeps its
lower half: `scan` seeks to `currSize` and stores `pos()`, and `isFileNewer` compares `currSize`
with the 64-bit size. In a file that is only appended to, the size is never below `currSize`, so
every scan starts at `currSize` (`isFileNewer_false`); it goes on from where the one before it
stopped just if that was below 4 GiB (`scans_chain`).

A line that begins with a NUL is an empty `QString` and ends the scan, so a scan does not always
go to the end of the file; `readOf` is what it takes. Of a log without NULs it takes all, and then
the size of the file decides (`scans_chain_small`).
-/

namespace WifiGateway.FileWatcher

variable {isSpace : Char → Bool} {s : State} {i : Nat} {es : List Event}

/-- Up to and including the first piece that begins with a NUL. -/
def upToNul : List Bytes → List Bytes
  | [] => []
  | piece :: pieces => if piece.head? = some 0 then [piece] else piece :: upToNul pieces

/-- What a scan takes of the text it finds. -/
def readOf (text : Bytes) : Bytes := (upToNul (Lines.scanned newline 1024 text)).flatten

/-- The offsets that a scan starts and stops at, as `QFile` has them. -/
structure Scan where
  start : Nat
  stop : Nat
  deriving DecidableEq

/-- The scan of `watchedFileChanged`, if the file can be opened. -/
def Watcher.fileScan (isSpace : Char → Bool) (w : Watcher) (d : Disk) : Option Scan :=
  match d.path with
  | none => none
  | some i =>
    -- `seek(currSize)`
    let start := if w.isFileNewer d then 0 else w.currSize.toNat
    let rest := (d.contents i).drop start
    let read := Lines.readLine newline 1024 rest
    -- `pos()`
    some ⟨start, start + (rest.length - (scanLoop isSpace read.1 read.2).2.length)⟩

/-- The scans of a run. -/
def State.scans (isSpace : Char → Bool) (s : State) : List Event → List Scan
  | [] => []
  | e :: es =>
    (if e = .fileChanged then (s.watcher.fileScan isSpace s.disk).toList else []) ++
      (s.step isSpace e).scans isSpace es

/-- The file is appended to, and notifications of it are handled. -/
def Event.Grows : Event → Prop
  | .append _ | .fileChanged => True
  | .renameAway | .create | .dirChanged => False

instance : DecidablePred Event.Grows := fun e => by
  cases e <;> unfold Event.Grows <;> infer_instance

/-- What the watcher has not read yet. -/
def State.unread (s : State) : Bytes :=
  match s.disk.path with
  | none => []
  | some i => (s.disk.contents i).drop s.watcher.currSize.toNat

/-- A scan that is followed by another one takes no text that ends at 4 GiB or beyond. -/
def BelowLimit (isSpace : Char → Bool) (s : State) : List Event → Prop
  | [] => True
  | e :: es =>
    (e = .fileChanged → .fileChanged ∈ es →
      s.watcher.currSize.toNat + (readOf s.unread).length < UInt32.size) ∧
      BelowLimit isSpace (s.step isSpace e) es

/-- A file of so many bytes is below 4 GiB at every notification that is followed by another one. -/
def StaysSmall : Nat → List Event → Prop
  | _, [] => True
  | size, .append bytes :: es => StaysSmall (size + bytes.length) es
  | size, .fileChanged :: es =>
    (.fileChanged ∈ es → size < UInt32.size) ∧ StaysSmall size es
  | size, .renameAway :: es | size, .create :: es | size, .dirChanged :: es => StaysSmall size es

/-- The watcher is somewhere in the file. -/
structure State.Inside (s : State) (i : Nat) : Prop where
  path : s.disk.path = some i
  inode : s.watcher.inode = i
  currSize : s.watcher.currSize.toNat ≤ (s.disk.contents i).length

/-! ## What a scan takes -/

theorem toQString_eq_nil {line : Bytes} (hne : line ≠ []) :
    toQString line = [] ↔ line.head? = some 0 := by
  cases line with
  | nil => exact absurd rfl hne
  | cons b line =>
    by_cases hb : b = 0
    · simp [toQString, hb]
    · simp [toQString, hb]

/-- What the loop takes and what it leaves are the text. -/
theorem scanLoop_left (line rest : Bytes) (h : line ≠ []) :
    (upToNul (line :: Lines.lines newline rest)).flatten ++ (scanLoop isSpace line rest).2 =
      line ++ rest := by
  fun_induction scanLoop isSpace line rest with
  | case1 line rest hstop =>
    rw [upToNul, if_pos ((toQString_eq_nil h).mp hstop)]
    simp
  | case2 line rest hgo read done ih =>
    rw [upToNul, if_neg fun hnul => hgo ((toQString_eq_nil h).mpr hnul), List.flatten_cons,
      List.append_assoc]
    congr 1
    by_cases hnil : rest = []
    · subst hnil
      have hempty : read = ([], []) := rfl
      have hdone : done = scanLoop isSpace [] [] := rfl
      rw [hdone, scanLoop]
      rfl
    · have hread : read.1 ++ read.2 = rest := Lines.takeLine_append newline rest
      have hfirst : read.1 ≠ [] := Lines.takeLine_ne_nil hnil
      rw [Lines.lines_eq hnil]
      exact (ih hfirst).trans hread

theorem readOf_left (isSpace : Char → Bool) (text : Bytes) :
    let read := Lines.readLine newline 1024 text
    readOf text ++ (scanLoop isSpace read.1 read.2).2 = text := by
  intro read
  by_cases hnil : text = []
  · subst hnil
    show readOf [] ++ (scanLoop isSpace [] []).2 = []
    rw [scanLoop]
    rfl
  · have hfirst : read.1 ≠ [] := by
      have hpiece : Lines.Piece newline ((Lines.takeLine newline text).1.take 1024) :=
        (Lines.takeLine_piece hnil).take (by omega)
      obtain ⟨t, x, ht, -⟩ := hpiece
      show (Lines.takeLine newline text).1.take 1024 ≠ []
      rw [ht]
      simp
    rw [readOf, Lines.scanned, if_neg hnil]
    exact (scanLoop_left read.1 read.2 hfirst).trans (Lines.readLine_append newline 1024 text)

/-- Without NULs all is taken. -/
theorem readOf_eq {text : Bytes} (hnul : 0 ∉ text) : readOf text = text := by
  have hall : ∀ pieces : List Bytes, 0 ∉ pieces.flatten → upToNul pieces = pieces := by
    intro pieces hp
    induction pieces with
    | nil => rfl
    | cons piece pieces ih =>
      rw [List.flatten_cons, List.mem_append, not_or] at hp
      have hhead : ¬ piece.head? = some 0 := fun h => hp.1 (List.mem_of_mem_head? h)
      rw [upToNul, if_neg hhead, ih hp.2]
  rw [readOf, hall, Lines.scanned_flatten]
  rwa [Lines.scanned_flatten]

/-! ## One step -/

theorem isFileNewer_false (h : s.Inside i) : s.watcher.isFileNewer s.disk = false := by
  simp [Watcher.isFileNewer, Disk.getINode, Disk.size, h.path, h.inode, h.currSize]

/-- A scan starts at `currSize`. -/
theorem fileScan_eq (h : s.Inside i) :
    s.watcher.fileScan isSpace s.disk =
      some ⟨s.watcher.currSize.toNat, s.watcher.currSize.toNat + (readOf s.unread).length⟩ := by
  have hunread : s.unread = (s.disk.contents i).drop s.watcher.currSize.toNat := by
    simp only [State.unread, h.path]
  have hleft := readOf_left isSpace s.unread
  have hlen := congrArg List.length hleft
  rw [List.length_append] at hlen
  rw [Watcher.fileScan]
  simp only [h.path, isFileNewer_false h, Bool.false_eq_true, if_false, ← hunread,
    Option.some.injEq, Scan.mk.injEq, true_and]
  omega

/-- It stores the lower half of where it stops. -/
theorem fileChanged_inside (h : s.Inside i) :
    (s.step isSpace .fileChanged).Inside i ∧
      (s.step isSpace .fileChanged).watcher.currSize =
        UInt32.ofNat (s.watcher.currSize.toNat + (readOf s.unread).length) := by
  have hunread : s.unread = (s.disk.contents i).drop s.watcher.currSize.toNat := by
    simp only [State.unread, h.path]
  have hleft := readOf_left isSpace s.unread
  have hlen := congrArg List.length hleft
  rw [List.length_append] at hlen
  have hcurr : (s.step isSpace .fileChanged).watcher.currSize =
      UInt32.ofNat (s.watcher.currSize.toNat + (readOf s.unread).length) := by
    simp only [State.step, State.handled, watchedFileChanged_eq h.path h.inode h.currSize,
      Watcher.scan, h.path, ← hunread]
    congr 2
    omega
  have hinode : (s.step isSpace .fileChanged).watcher.inode = i := by
    simp only [State.step, State.handled, watchedFileChanged_eq h.path h.inode h.currSize,
      Watcher.scan, h.path, h.inode]
  refine ⟨⟨h.path, hinode, ?_⟩, hcurr⟩
  rw [hcurr]
  have hrest : s.unread.length = (s.disk.contents i).length - s.watcher.currSize.toNat := by
    rw [hunread, List.length_drop]
  have hpos := h.currSize
  calc (UInt32.ofNat (s.watcher.currSize.toNat + (readOf s.unread).length)).toNat
      ≤ s.watcher.currSize.toNat + (readOf s.unread).length := by
        rw [UInt32.toNat_ofNat']
        exact Nat.mod_le ..
    _ ≤ (s.disk.contents i).length := by omega

theorem append_inside (h : s.Inside i) (bytes : Bytes) :
    (s.step isSpace (.append bytes)).Inside i ∧
      (s.step isSpace (.append bytes)).watcher = s.watcher := by
  have hstep : s.step isSpace (.append bytes) = { s with disk := { s.disk with
      contents := Function.update s.disk.contents i (s.disk.contents i ++ bytes) } } := by
    simp only [State.step, h.path]
  rw [hstep]
  refine ⟨⟨h.path, h.inode, ?_⟩, rfl⟩
  have hcontents : Function.update s.disk.contents i (s.disk.contents i ++ bytes) i =
      s.disk.contents i ++ bytes := Function.update_self ..
  have hpos := h.currSize
  simp only [hcontents, List.length_append]
  omega

/-! ## The run -/

/-- The next scan of a run, if there is one, starts at `currSize`. -/
theorem scans_head (h : s.Inside i) (hes : ∀ e ∈ es, e.Grows) :
    (s.scans isSpace es).head?.map Scan.start =
      if .fileChanged ∈ es then some s.watcher.currSize.toNat else none := by
  induction es generalizing s with
  | nil => rfl
  | cons e es ih =>
    obtain ⟨he, hrest⟩ := List.forall_mem_cons.mp hes
    cases e with
    | append bytes =>
      obtain ⟨hin, hsame⟩ := @append_inside isSpace s i h bytes
      have hnext := ih hin hrest
      rw [hsame] at hnext
      simpa [State.scans] using hnext
    | fileChanged => simp [State.scans, fileScan_eq h]
    | renameAway => exact absurd he id
    | create => exact absurd he id
    | dirChanged => exact absurd he id

theorem scans_chain (h : s.Inside i) (hes : ∀ e ∈ es, e.Grows) :
    (s.scans isSpace es).IsChain (fun before after => after.start = before.stop) ↔
      BelowLimit isSpace s es := by
  induction es generalizing s with
  | nil => exact iff_of_true .nil trivial
  | cons e es ih =>
    obtain ⟨he, hrest⟩ := List.forall_mem_cons.mp hes
    cases e with
    | append bytes =>
      have ih' := ih (@append_inside isSpace s i h bytes).1 hrest
      simpa [State.scans, BelowLimit] using ih'
    | fileChanged =>
      obtain ⟨hin, hcurr⟩ := @fileChanged_inside isSpace s i h
      have hhead := @scans_head isSpace _ i es hin hrest
      rw [hcurr, UInt32.toNat_ofNat'] at hhead
      have hscans : s.scans isSpace (.fileChanged :: es) =
          ⟨s.watcher.currSize.toNat, s.watcher.currSize.toNat + (readOf s.unread).length⟩ ::
            (s.step isSpace .fileChanged).scans isSpace es := by
        rw [State.scans, if_pos rfl, fileScan_eq h]
        rfl
      rw [hscans, List.isChain_cons, BelowLimit, ih hin hrest]
      refine and_congr_left fun _ => ?_
      cases hlist : (s.step isSpace .fileChanged).scans isSpace es with
      | nil =>
        -- no scan follows
        have hlast : .fileChanged ∉ es := by
          intro hmem
          rw [hlist, if_pos hmem] at hhead
          exact absurd hhead (by simp)
        exact iff_of_true (by simp) fun _ hmem => absurd hmem hlast
      | cons next later =>
        have hmem : .fileChanged ∈ es := by
          by_contra hnot
          rw [hlist, if_neg hnot] at hhead
          exact absurd hhead (by simp)
        rw [hlist, if_pos hmem] at hhead
        have hstart : next.start =
            (s.watcher.currSize.toNat + (readOf s.unread).length) % UInt32.size :=
          Option.some.inj hhead
        simp only [List.head?_cons, Option.mem_some_iff, forall_eq', hstart, hmem, forall_const]
        exact Nat.mod_eq_iff_lt (by decide)
    | renameAway => exact absurd he id
    | create => exact absurd he id
    | dirChanged => exact absurd he id

theorem start_inside {d : Disk} (hpath : d.path = some i) : (State.start d).Inside i := by
  have hcaught := start_caughtUp hpath
  refine ⟨hpath, hcaught.inode, ?_⟩
  rw [hcaught.currSize, UInt32.toNat_ofNat']
  exact Nat.mod_le ..

/-- A scan of a file without NULs stops at its end. -/
theorem readOf_unread (h : s.Inside i) (hnul : 0 ∉ s.disk.contents i) :
    s.watcher.currSize.toNat + (readOf s.unread).length = (s.disk.contents i).length := by
  have hunread : s.unread = (s.disk.contents i).drop s.watcher.currSize.toNat := by
    simp only [State.unread, h.path]
  have hpos := h.currSize
  rw [readOf_eq fun hmem => hnul (List.mem_of_mem_drop (hunread ▸ hmem)), hunread,
    List.length_drop]
  omega

theorem belowLimit_iff (h : s.Inside i) (hes : ∀ e ∈ es, e.Grows) (hnul : 0 ∉ s.disk.contents i)
    (happended : ∀ bytes, .append bytes ∈ es → 0 ∉ bytes) :
    BelowLimit isSpace s es ↔ StaysSmall (s.disk.contents i).length es := by
  induction es generalizing s with
  | nil => exact Iff.rfl
  | cons e es ih =>
    obtain ⟨he, hrest⟩ := List.forall_mem_cons.mp hes
    have happended' : ∀ bytes, .append bytes ∈ es → 0 ∉ bytes :=
      fun bytes hmem => happended bytes (List.mem_cons_of_mem e hmem)
    cases e with
    | append bytes =>
      have hcontents : (s.step isSpace (.append bytes)).disk.contents i =
          s.disk.contents i ++ bytes := by
        simp only [State.step, h.path]
        exact Function.update_self ..
      have hnul' : 0 ∉ (s.step isSpace (.append bytes)).disk.contents i := by
        rw [hcontents, List.mem_append, not_or]
        exact ⟨hnul, happended bytes List.mem_cons_self⟩
      have ih' := ih (@append_inside isSpace s i h bytes).1 hrest hnul' happended'
      rw [hcontents, List.length_append] at ih'
      rw [StaysSmall, ← ih', BelowLimit]
      exact and_iff_right fun hx => absurd hx (by simp)
    | fileChanged =>
      have ih' := ih (@fileChanged_inside isSpace s i h).1 hrest hnul happended'
      rw [BelowLimit, readOf_unread h hnul, StaysSmall]
      exact and_congr (forall_prop_of_true rfl) ih'
    | renameAway => exact absurd he id
    | create => exact absurd he id
    | dirChanged => exact absurd he id

/-- Without NULs: every scan starts where the one before it stopped if and only if the file is below
4 GiB at every notification but the last one. -/
theorem scans_chain_small {d : Disk} (hpath : d.path = some i) (hes : ∀ e ∈ es, e.Grows)
    (hnul : 0 ∉ d.contents i) (happended : ∀ bytes, .append bytes ∈ es → 0 ∉ bytes) :
    ((State.start d).scans isSpace es).IsChain (fun before after => after.start = before.stop) ↔
      StaysSmall (d.contents i).length es :=
  (scans_chain (start_inside hpath) hes).trans
    (belowLimit_iff (start_inside hpath) hes hnul happended)

/-- Every scan starts where the one before it stopped if and only if every scan that is followed
by another one stops below 4 GiB. -/
theorem cursor_iff (isSpace : Char → Bool) {d : Disk} (hpath : d.path = some i)
    {es : List Event} (hes : ∀ e ∈ es, e.Grows) :
    ((State.start d).scans isSpace es).IsChain (fun before after => after.start = before.stop) ↔
      BelowLimit isSpace (State.start d) es :=
  scans_chain (start_inside hpath) hes

/-- Two lines, written one by one. -/
theorem cursor_small :
    let events : List Event := [.append [97, 10], .fileChanged, .append [98, 10], .fileChanged]
    ((State.start emptyFile).scans Char.isWhitespace events).IsChain
        (fun before after => after.start = before.stop) ↔
      BelowLimit Char.isWhitespace (State.start emptyFile) events :=
  cursor_iff Char.isWhitespace (d := emptyFile) rfl (by decide)

/-- A text of `n` lines. -/
def manyLines (n : Nat) : Bytes := (List.replicate n [97, 10]).flatten

theorem manyLines_length (n : Nat) : (manyLines n).length = 2 * n := by
  induction n with
  | zero => rfl
  | succ n ih =>
    rw [manyLines, List.replicate_succ, List.flatten_cons, List.length_append]
    show 2 + (manyLines n).length = 2 * (n + 1)
    omega

theorem manyLines_nul (n : Nat) : 0 ∉ manyLines n := by
  intro hmem
  obtain ⟨line, hline, hnul⟩ := List.mem_flatten.mp hmem
  rw [List.eq_of_mem_replicate hline] at hnul
  exact absurd hnul (by decide)

/-- 2147483648 lines "a", and two notifications: the second scan starts at 0 again. -/
theorem cursor_wraps :
    ¬ ((State.start emptyFile).scans Char.isWhitespace
        [.append (manyLines 2147483648), .fileChanged, .fileChanged]).IsChain
      (fun before after => after.start = before.stop) := by
  rw [scans_chain_small (i := 1) rfl (by simp [Event.Grows]) List.not_mem_nil]
  · intro h
    have hsize := h.1 List.mem_cons_self
    rw [manyLines_length] at hsize
    exact absurd hsize (by decide)
  · intro bytes hmem
    obtain rfl : bytes = manyLines 2147483648 := by simpa using hmem
    exact manyLines_nul _

end WifiGateway.FileWatcher
