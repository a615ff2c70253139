import Mathlib.Data.List.Basic

/-!
# `QString::arg`

A place marker is a percent sign, an `L` or not, and one or two digits. `arg` puts a text in for
the markers with the lowest number, all of them, and leaves the others as they are written. A
second call sees what the first one has put in, so a text with a percent sign may bring a marker
of its own, and one that starts with a digit may lengthen the marker before it.

Where neither can happen (`Sound`) the text that was put together is taken apart again as it was
(`pieces_text`), and a row of calls puts in one text after the other (`arg_text`).

Digits are the ten ASCII ones; `digitValue` knows those of other scripts as well.
-/

namespace QString

/-- A character, or a marker with its number and as it is written. -/
inductive Piece
  | char (c : Char)
  | marker (n : Nat) (text : List Char)
  deriving DecidableEq, Repr

namespace Piece

def number : Piece → Option Nat
  | char _ => none
  | marker n _ => some n

def text : Piece → List Char
  | char c => [c]
  | marker _ text => text

end Piece

/-- `QChar::digitValue`. -/
def digitValue (c : Char) : Nat := c.toNat - '0'.toNat

/-- One or two digits: the number and how many they are. -/
def number : List Char → Option (Nat × Nat)
  | [] => none
  | c :: cs =>
    if c.isDigit then
      match cs with
      | [] => some (digitValue c, 1)
      | d :: _ =>
        if d.isDigit then some (10 * digitValue c + digitValue d, 2) else some (digitValue c, 1)
    else none

/-- The marker that a text starts with: its number and its length. -/
def marker : List Char → Option (Nat × Nat)
  | '%' :: 'L' :: cs => (number cs).map fun r => (r.1, r.2 + 2)
  | '%' :: cs => (number cs).map fun r => (r.1, r.2 + 1)
  | _ => none

/-- The pieces of a text of which `skip` characters belong to a marker that was found. -/
def piecesFrom : Nat → List Char → List Piece
  | _, [] => []
  | skip + 1, _ :: cs => piecesFrom skip cs
  | 0, c :: cs =>
    match marker (c :: cs) with
    | some (n, length) => .marker n ((c :: cs).take length) :: piecesFrom (length - 1) cs
    | none => .char c :: piecesFrom 0 cs

/-- The pieces of a text. -/
def pieces (s : List Char) : List Piece := piecesFrom 0 s

/-- A text put together. -/
def text (ps : List Piece) : List Char := ps.flatMap Piece.text

/-- The lowest number of a marker. -/
def lowest (ps : List Piece) : Option Nat := (ps.filterMap Piece.number).min?

/-- A text put in for the markers with a number. -/
def fill (n : Nat) (v : List Char) (ps : List Piece) : List Piece :=
  ps.flatMap fun
    | .char c => [.char c]
    | .marker m written => if m = n then v.map .char else [.marker m written]

/-- `QString::arg`. -/
def arg (s v : String) : String :=
  match lowest (pieces s.toList) with
  | none => s
  | some n => String.ofList (text (fill n v.toList (pieces s.toList)))

/-! ## Texts that stay apart -/

/-- The next piece is a character other than a digit, if there is one. -/
def Ends (ps : List Piece) : Prop := ∀ p ∈ ps.head?, ∃ c, p = .char c ∧ c.isDigit = false

/-- No percent sign but those of the markers, which have one digit and end there. -/
def Sound : List Piece → Prop
  | [] => True
  | .char c :: ps => c ≠ '%' ∧ Sound ps
  | .marker n written :: ps =>
    (∃ d : Char, d.isDigit = true ∧ n = digitValue d ∧ written = ['%', d]) ∧ Ends ps ∧ Sound ps

variable {ps : List Piece} {n : Nat} {v : List Char}

theorem Sound.chars (h : Sound ps) (hv : '%' ∉ v) : Sound (v.map .char ++ ps) := by
  induction v with
  | nil => exact h
  | cons c v ih =>
    obtain ⟨hc, hrest⟩ := not_or.mp (List.mem_cons.not.mp hv)
    exact ⟨fun heq => hc heq.symm, ih hrest⟩

theorem text_chars (v : List Char) (ps : List Piece) : text (v.map .char ++ ps) = v ++ text ps := by
  unfold text
  rw [List.flatMap_append, List.flatMap_map]
  congr 1
  exact List.flatMap_singleton' v

theorem number_of_ends {d : Char} (hd : d.isDigit = true) (h : Ends ps) :
    number (d :: text ps) = some (digitValue d, 1) := by
  unfold number
  cases ps with
  | nil => exact if_pos hd
  | cons p ps =>
    obtain ⟨c, rfl, hc⟩ := h p rfl
    have htext : text (.char c :: ps) = c :: text ps := rfl
    rw [htext]
    simp [hd, hc]

/-- What was put together is taken apart. -/
theorem pieces_text (h : Sound ps) : pieces (text ps) = ps := by
  unfold pieces
  induction ps with
  | nil => rfl
  | cons p ps ih =>
    cases p with
    | char c =>
      obtain ⟨hc, hrest⟩ := h
      have hmarker : marker (c :: text ps) = none := by
        unfold marker
        split
        · next heq => exact absurd (List.cons.inj heq).1 hc
        · next heq => exact absurd (List.cons.inj heq).1 hc
        · rfl
      show piecesFrom 0 (c :: text ps) = _
      unfold piecesFrom
      rw [hmarker]
      exact congrArg _ (ih hrest)
    | marker n written =>
      obtain ⟨⟨d, hd, rfl, rfl⟩, hends, hrest⟩ := h
      have hmarker : marker ('%' :: d :: text ps) = some (digitValue d, 2) := by
        have hletter : d ≠ 'L' := by
          rintro rfl
          exact absurd hd (by decide)
        unfold marker
        split
        · next heq => exact absurd (List.cons.inj (List.cons.inj heq).2).1 hletter
        · next heq =>
          obtain ⟨-, rfl⟩ := List.cons.inj heq
          rw [number_of_ends hd hends]
          rfl
        · next hno => exact absurd rfl (hno _)
      show piecesFrom 0 ('%' :: d :: text ps) = _
      unfold piecesFrom
      rw [hmarker]
      show Piece.marker (digitValue d) ['%', d] :: piecesFrom 0 (text ps) = _
      rw [ih hrest]

/-- A call of `arg` on a text that is taken apart as it was put together. -/
theorem arg_text (h : Sound ps) (hlowest : lowest ps = some n) (v : String) :
    arg (String.ofList (text ps)) v = String.ofList (text (fill n v.toList ps)) := by
  unfold arg
  rw [String.toList_ofList, pieces_text h, hlowest]

/-! ## Formats -/

/-- A text with the markers from `k` on in it, each followed by one of the other texts. -/
def format (k : Nat) (lead : List Char) : List (List Char) → List Piece
  | [] => lead.map .char
  | r :: rs => lead.map .char ++ .marker k ['%', Nat.digitChar k] :: format (k + 1) r rs

/-- The texts with values between them. -/
def merge (lead : List Char) : List (List Char) → List (List Char) → List Char
  | v :: vs, r :: rs => merge (lead ++ v ++ r) vs rs
  | _, _ => lead

/-- No text after a marker starts with a digit, and only the last one may be empty. -/
def Apart : List (List Char) → Prop
  | [] => True
  | r :: rs => (∀ c ∈ r.head?, c.isDigit = false) ∧ (r = [] → rs = []) ∧ Apart rs

variable {k : Nat} {lead : List Char} {r : List Char} {rs vs : List (List Char)}

theorem format_append (k : Nat) (u lead : List Char) (rs : List (List Char)) :
    format k (u ++ lead) rs = u.map .char ++ format k lead rs := by
  cases rs with
  | nil => exact List.map_append
  | cons r rs =>
    show (u ++ lead).map Piece.char ++ _ = _
    rw [List.map_append, List.append_assoc]
    rfl

theorem number_digitChar (hk : k < 10) :
    (Nat.digitChar k).isDigit = true ∧ k = digitValue (Nat.digitChar k) := by
  have hall : ∀ k < 10, (Nat.digitChar k).isDigit = true ∧ k = digitValue (Nat.digitChar k) := by
    decide
  exact hall k hk

theorem format_sound (hk : k + rs.length ≤ 10) (hlead : '%' ∉ lead) (hrs : ∀ r ∈ rs, '%' ∉ r)
    (hapart : Apart rs) : Sound (format k lead rs) := by
  induction rs generalizing k lead with
  | nil =>
    have hsound : Sound (lead.map .char ++ []) := Sound.chars trivial hlead
    rwa [List.append_nil] at hsound
  | cons r rs ih =>
    obtain ⟨hr, hrest⟩ := List.forall_mem_cons.mp hrs
    obtain ⟨hdigit, hempty, hapart'⟩ := hapart
    rw [List.length_cons] at hk
    obtain ⟨hd, hvalue⟩ := number_digitChar (k := k) (by omega)
    refine Sound.chars ⟨⟨_, hd, hvalue, rfl⟩, ?_, ih (by omega) hr hrest hapart'⟩ hlead
    intro p hp
    cases r with
    | nil =>
      obtain rfl := hempty rfl
      exact absurd hp (by simp [format])
    | cons c r =>
      have hhead : (format (k + 1) (c :: r) rs).head? = some (.char c) := by
        cases rs with
        | nil => rfl
        | cons r' rs => rfl
      rw [hhead] at hp
      obtain rfl := Option.some.inj hp
      exact ⟨c, rfl, hdigit c rfl⟩

/-- The markers of a format from `k` on. -/
theorem format_numbers (k : Nat) (lead : List Char) (rs : List (List Char)) :
    (format k lead rs).filterMap Piece.number = List.range' k rs.length := by
  have hchars : ∀ u : List Char, (u.map Piece.char).filterMap Piece.number = [] := by
    intro u
    rw [List.filterMap_map]
    exact List.filterMap_eq_nil_iff.mpr fun _ _ => rfl
  induction rs generalizing k lead with
  | nil => exact hchars lead
  | cons r rs ih =>
    unfold format
    rw [List.filterMap_append, hchars, List.nil_append]
    exact congrArg (List.cons k) (ih (k + 1) r)

theorem format_lowest : lowest (format k lead (r :: rs)) = some k := by
  unfold lowest
  rw [format_numbers, List.min?_eq_some_iff]
  refine ⟨List.mem_range'_1.mpr (by simp), fun n hn => ?_⟩
  exact (List.mem_range'_1.mp hn).1

/-- A number that no marker has. -/
theorem fill_of_notMem (h : n ∉ ps.filterMap Piece.number) : fill n v ps = ps := by
  induction ps with
  | nil => rfl
  | cons p ps ih =>
    have hrest : n ∉ ps.filterMap Piece.number := by
      cases p with
      | char => exact h
      | marker m written => exact fun hmem => h (List.mem_cons_of_mem m hmem)
    have hsame : fill n v (p :: ps) = p :: fill n v ps := by
      cases p with
      | char => rfl
      | marker m written =>
        have hne : m ≠ n := by
          rintro rfl
          exact h List.mem_cons_self
        show (if m = n then v.map Piece.char else [.marker m written]) ++ fill n v ps = _
        rw [if_neg hne]
        rfl
    rw [hsame, ih hrest]

theorem fill_chars (n : Nat) (v u : List Char) (ps : List Piece) :
    fill n v (u.map .char ++ ps) = u.map .char ++ fill n v ps := by
  induction u with
  | nil => rfl
  | cons c u ih => exact congrArg (List.cons (Piece.char c)) ih

theorem format_fill (k : Nat) (v lead r : List Char) (rs : List (List Char)) :
    fill k v (format k lead (r :: rs)) = format (k + 1) (lead ++ v ++ r) rs := by
  have hrest : fill k v (format (k + 1) r rs) = format (k + 1) r rs := by
    apply fill_of_notMem
    rw [format_numbers]
    intro hmem
    have hle := (List.mem_range'_1.mp hmem).1
    omega
  have hmarker : fill k v (.marker k ['%', Nat.digitChar k] :: format (k + 1) r rs) =
      v.map .char ++ fill k v (format (k + 1) r rs) := by
    show (if k = k then v.map Piece.char else _) ++ fill k v (format (k + 1) r rs) = _
    rw [if_pos rfl]
  calc fill k v (format k lead (r :: rs))
      = lead.map .char ++ (v.map .char ++ format (k + 1) r rs) := by
        rw [format, fill_chars, hmarker, hrest]
    _ = format (k + 1) (lead ++ v ++ r) rs := by
        rw [List.append_assoc, format_append, format_append]

/-- Values without percent signs are put in one after the other. -/
theorem foldl_arg {vs : List String} (hk : k + rs.length ≤ 10) (hlead : '%' ∉ lead)
    (hrs : ∀ r ∈ rs, '%' ∉ r) (hapart : Apart rs) (hvs : ∀ v ∈ vs, '%' ∉ v.toList)
    (hlength : vs.length = rs.length) :
    vs.foldl arg (String.ofList (text (format k lead rs))) =
      String.ofList (merge lead (vs.map String.toList) rs) := by
  induction vs generalizing k lead rs with
  | nil =>
    obtain rfl := List.length_eq_zero_iff.mp hlength.symm
    have htext := text_chars lead []
    rw [List.append_nil] at htext
    exact congrArg String.ofList (htext.trans (List.append_nil lead))
  | cons v vs ih =>
    cases rs with
    | nil => exact absurd hlength (by simp)
    | cons r rs =>
      obtain ⟨hv, hvs'⟩ := List.forall_mem_cons.mp hvs
      obtain ⟨hr, hrs'⟩ := List.forall_mem_cons.mp hrs
      have hsound := format_sound hk hlead hrs hapart
      rw [List.length_cons] at hk
      rw [List.foldl_cons, arg_text hsound format_lowest, format_fill]
      refine ih (by omega) ?_ hrs' hapart.2.2 hvs' (by simpa using hlength)
      simp only [List.mem_append, not_or]
      exact ⟨⟨hlead, hv⟩, hr⟩

end QString
