import WifiGateway.Text.Grep

/-!
# IPv4 addresses as text

The canonical text of an address: four decimal numbers without leading zeros, with
dots between them. It determines the address (`text_injective`), it is what the
expression `^[0-9]{1,3}\.[0-9]{1,3}\.[0-9]{1,3}\.[0-9]{1,3}` is meant for
(`looksLikeAddress_text`), and it is read back (`read_chars`); the expression accepts
more, since it does not say where a text ends.

A mask is an address too: `mask n` is the one of a network whose prefix has `n` bits.
-/

/-- An IPv4 address. -/
structure Ipv4 where
  a : Fin 256
  b : Fin 256
  c : Fin 256
  d : Fin 256
  deriving DecidableEq, Repr

namespace Ipv4

/-- A number in decimal. -/
def octet (n : Fin 256) : List Char := Nat.toDigits 10 n

/-- The characters of the canonical text. -/
def chars (x : Ipv4) : List Char :=
  octet x.a ++ '.' :: (octet x.b ++ '.' :: (octet x.c ++ '.' :: octet x.d))

/-- The canonical text. -/
def text (x : Ipv4) : String := String.ofList x.chars

/-- `egrep "^[0-9]{1,3}\.[0-9]{1,3}\.[0-9]{1,3}\.[0-9]{1,3}"`. -/
def looksLikeAddress (s : String) : Bool :=
  let dot := Grep.literal ['.']
  Grep.matchesAt (Grep.digits13 ++ (dot ++ (Grep.digits13 ++ (dot ++ (Grep.digits13 ++
    (dot ++ (Grep.digits13 ++ []))))))) s.toList

/-- The number below 256 that is written so. -/
def readOctet (ds : List Char) : Option (Fin 256) :=
  let n := Nat.ofDigitChars 10 ds 0
  if h : n < 256 then if octet ⟨n, h⟩ = ds then some ⟨n, h⟩ else none else none

/-- The address with this canonical text. -/
def read (s : List Char) : Option Ipv4 :=
  match s.splitOn '.' with
  | [a, b, c, d] =>
    match readOctet a, readOctet b, readOctet c, readOctet d with
    | some a, some b, some c, some d => some ⟨a, b, c, d⟩
    | _, _, _, _ => none
  | _ => none

/-- The bits of an address that a mask keeps. -/
def masked (x m : Ipv4) : Ipv4 := ⟨x.a &&& m.a, x.b &&& m.b, x.c &&& m.c, x.d &&& m.d⟩

/-- The mask with so many bits, from the first one on. -/
def mask (n : Nat) : Ipv4 :=
  let ones (k : Nat) : Fin 256 := ⟨255 - (255 >>> k), Nat.lt_succ_of_le (Nat.sub_le _ _)⟩
  ⟨ones n, ones (n - 8), ones (n - 16), ones (n - 24)⟩

/-- The mask that is written so, as a number of bits or as an address. -/
def readMask (s : List Char) : Option Ipv4 :=
  let n := Nat.ofDigitChars 10 s 0
  if n ≤ 32 ∧ Nat.toDigits 10 n = s then some (mask n) else read s

/-- A mask as it is printed: its number of bits, unless it has gaps. -/
def maskText (m : Ipv4) : String :=
  match (List.range 33).find? fun n => mask n = m with
  | some n => n.repr
  | none => m.text

@[simp] theorem toList_text (x : Ipv4) : x.text.toList = x.chars := String.toList_ofList

theorem octet_digits (n : Fin 256) : ∀ c ∈ octet n, c.isDigit = true :=
  fun _ hc => Nat.isDigit_of_mem_toDigits (by decide) (by decide) hc

theorem octet_pos (n : Fin 256) : 0 < (octet n).length := Nat.length_toDigits_pos

theorem octet_length (n : Fin 256) : (octet n).length ≤ 3 :=
  (Nat.length_toDigits_le_iff (by decide) (by decide)).mpr (by omega)

theorem octet_dot (n : Fin 256) : '.' ∉ octet n :=
  fun h => absurd (octet_digits n _ h) (by decide)

theorem readOctet_octet (n : Fin 256) : readOctet (octet n) = some n := by
  unfold readOctet octet
  rw [Nat.ofDigitChars_ten_toDigits]
  dsimp only
  rw [dif_pos n.isLt, if_pos rfl]

theorem slash_notMem (x : Ipv4) : '/' ∉ x.chars := by
  have hoctet : ∀ n : Fin 256, '/' ∉ octet n := fun n h => absurd (octet_digits n _ h) (by decide)
  simp [chars, hoctet]

/-- What is printed is read back. -/
theorem read_chars (x : Ipv4) : read x.chars = some x := by
  have hparts : x.chars.splitOn '.' = [octet x.a, octet x.b, octet x.c, octet x.d] := by
    unfold chars
    rw [List.splitOn_append_cons_self_of_not_mem (octet_dot x.a),
      List.splitOn_append_cons_self_of_not_mem (octet_dot x.b),
      List.splitOn_append_cons_self_of_not_mem (octet_dot x.c),
      List.splitOn_eq_singleton (octet_dot x.d)]
  unfold read
  rw [hparts]
  simp only [readOctet_octet]

theorem octet_injective {m n : Fin 256} (h : octet m = octet n) : m = n := by
  have hnum := congrArg (fun ds => Nat.ofDigitChars 10 ds 0) h
  simpa [octet, Nat.ofDigitChars_ten_toDigits, Fin.ext_iff] using hnum

/-- What comes before the first dot, and what comes after it. -/
theorem dot_inj {u v u' v' : List Char} (hu : '.' ∉ u) (hu' : '.' ∉ u')
    (h : u ++ '.' :: v = u' ++ '.' :: v') : u = u' ∧ v = v' := by
  induction u generalizing u' with
  | nil =>
    cases u' with
    | nil => exact ⟨rfl, (List.cons.inj h).2⟩
    | cons c u' => exact absurd (List.cons.inj h).1 (fun e => hu' (by simp [← e]))
  | cons c u ih =>
    cases u' with
    | nil => exact absurd (List.cons.inj h).1 (fun e => hu (by simp [e]))
    | cons c' u' =>
      obtain ⟨hc, hrest⟩ := List.cons.inj h
      obtain ⟨hu1, hv⟩ := ih (fun e => hu (List.mem_cons_of_mem c e))
        (fun e => hu' (List.mem_cons_of_mem c' e)) hrest
      exact ⟨by rw [hc, hu1], hv⟩

/-- The canonical text determines the address. -/
theorem text_injective {x y : Ipv4} (h : x.text = y.text) : x = y := by
  have hchars : x.chars = y.chars := by rw [← toList_text, ← toList_text, h]
  unfold chars at hchars
  obtain ⟨ha, hbcd⟩ := dot_inj (octet_dot x.a) (octet_dot y.a) hchars
  obtain ⟨hb, hcd⟩ := dot_inj (octet_dot x.b) (octet_dot y.b) hbcd
  obtain ⟨hc, hd⟩ := dot_inj (octet_dot x.c) (octet_dot y.c) hcd
  cases x
  cases y
  rw [mk.injEq]
  exact ⟨octet_injective ha, octet_injective hb, octet_injective hc, octet_injective hd⟩

theorem text_ne_empty (x : Ipv4) : x.text ≠ "" := by
  intro h
  have hnil : x.chars = [] := by rw [← toList_text, h]; rfl
  simp [chars] at hnil

/-- A dot, and what follows. -/
theorem matchesAt_dot {p : Grep.Pattern} {post : List Char} (h : Grep.matchesAt p post = true) :
    Grep.matchesAt (Grep.literal ['.'] ++ p) ('.' :: post) = true :=
  Grep.matchesAt_one rfl h

/-- Canonical text passes for an address. -/
theorem looksLikeAddress_text (x : Ipv4) : looksLikeAddress x.text = true := by
  have step : ∀ (n : Fin 256) {p : Grep.Pattern} {post : List Char},
      Grep.matchesAt p post = true →
        Grep.matchesAt (Grep.digits13 ++ p) (octet n ++ post) = true := fun n _ _ h =>
    Grep.matchesAt_digits13 (octet_pos n) (octet_length n) (octet_digits n) h
  have last := @step x.d [] [] rfl
  rw [List.append_nil (octet x.d)] at last
  unfold looksLikeAddress
  dsimp only
  rw [toList_text]
  exact step x.a (matchesAt_dot (step x.b (matchesAt_dot (step x.c (matchesAt_dot last)))))

/-- What passes for an address has a dot. -/
theorem dot_of_looksLikeAddress {s : String} (h : looksLikeAddress s = true) : '.' ∈ s.toList := by
  obtain ⟨c, hc, hdot⟩ := Grep.exists_of_matchesAt (q := fun c => c == '.') h
    (by simp [Grep.literal, Grep.digits13])
  rwa [beq_iff_eq.mp hdot] at hc

end Ipv4
