import GemLink.Json.Reader
import GemLink.Proofs.Text.Numeral

/-!
The literals of JSON. A string literal is taken character by character (`units?_escape`) and read
back, also one that names no text (`literal?_quoted`). A number is taken part by part, and read back
in front of everything that may follow it in a compact text (`number?_append`); `IsNumber` is the
grammar of its literals, and numerals satisfy it (`isNumber_ofNat`).
-/

namespace GemLink.Json

/-! ## What comes first and what follows -/

/-- Whether a text ends here or goes on with one of the given characters. -/
def Follows (allowed rest : List Char) : Prop :=
  ∀ c ∈ rest.head?, c ∈ allowed

theorem follows_nil (allowed : List Char) : Follows allowed [] := by
  intro c h
  cases h

theorem follows_cons {allowed : List Char} {c : Char} (h : c ∈ allowed) (rest : List Char) :
    Follows allowed (c :: rest) := by
  intro d hd
  cases hd
  exact h

theorem Follows.mono {allowed more rest : List Char} (h : Follows allowed rest)
    (hm : ∀ c ∈ allowed, c ∈ more) : Follows more rest := by
  intro c hc
  exact hm c (h c hc)

/-- What follows a document in a compact text. -/
def closers : List Char := [',', ']', '}']

theorem skipBlank_cons {c : Char} (h : c ∉ [' ', '\n', '\t', '\r']) (cs : List Char) :
    skipBlank (c :: cs) = c :: cs := by
  simp only [List.mem_cons, List.not_mem_nil, or_false, not_or] at h
  unfold skipBlank
  rw [List.dropWhile_cons_of_neg]
  simp [h]

/-! ## Strings -/

theorem hexValue?_hexDigit {d : Nat} (h : d < 16) : hexValue? (hexDigit d) = some d := by
  revert d
  decide

theorem hexUnit?_control {n : Nat} (h : n < 32) :
    hexUnit? '0' '0' (hexDigit (n / 16)) (hexDigit (n % 16)) = some n := by
  have h0 : hexValue? '0' = some 0 := by decide
  have h1 := hexValue?_hexDigit (show n / 16 < 16 by omega)
  have h2 := hexValue?_hexDigit (Nat.mod_lt n (show 16 > 0 by decide))
  simp only [hexUnit?, h0, h1, h2, Option.bind_eq_bind, Option.bind_some, Option.some.injEq]
  omega

theorem units?_plain {c : Char} (hq : c ≠ '"') (hb : c ≠ '\\') (hc : 32 ≤ c.toNat)
    (before : List Nat) (rest : List Char) :
    units? before (c :: rest) = units? (c.toNat :: before) rest := by
  rw [units?.eq_def]
  split
  · next he => cases he
  · next he => exact absurd (List.cons.inj he).1 hq
  · next he => exact absurd (List.cons.inj he).1 hb
  · next he => exact absurd (List.cons.inj he).1 hb
  · next he =>
    obtain ⟨rfl, rfl⟩ := List.cons.inj he
    exact if_neg (Nat.not_lt.mpr hc)

theorem units?_pair {c : Char} {unit : Nat} (h : unescape? c = some unit) (before : List Nat)
    (rest : List Char) : units? before ('\\' :: c :: rest) = units? (unit :: before) rest := by
  have hu : c ≠ 'u' := by
    rintro rfl
    cases h
  rw [units?.eq_def]
  split
  · next he => cases he
  · next he => exact absurd (List.cons.inj he).1 (by decide)
  · next he => exact absurd (List.cons.inj (List.cons.inj he).2).1 hu
  · next he =>
    cases he
    rw [h]
  · next hn he =>
    cases he
    exact absurd rfl (hn _ _ rfl)

theorem units?_hex {a b c d : Char} {unit : Nat} (h : hexUnit? a b c d = some unit)
    (before : List Nat) (rest : List Char) :
    units? before ('\\' :: 'u' :: a :: b :: c :: d :: rest) = units? (unit :: before) rest := by
  rw [units?, h]

/-- A character inside a string literal is read as its code, however it is written. -/
theorem units?_escape (c : Char) (before : List Nat) (rest : List Char) :
    units? before (escape c ++ rest) = units? (c.toNat :: before) rest := by
  unfold escape
  split
  · next h => exact units?_pair (by rw [h]; rfl) before rest
  split
  · next h => exact units?_pair (by rw [h]; rfl) before rest
  split
  · next h => exact units?_pair (by rw [h]; rfl) before rest
  split
  · next h => exact units?_pair (by rw [h]; rfl) before rest
  split
  · next h => exact units?_pair (by rw [h]; rfl) before rest
  split
  · next h => exact units?_pair (by rw [h]; rfl) before rest
  split
  · next h => exact units?_pair (by rw [h]; rfl) before rest
  split
  · next h => exact units?_hex (hexUnit?_control h) before rest
  · next hq hb _ _ _ _ _ hc => exact units?_plain hq hb (by omega) before rest

theorem units?_flatMap_escape (cs : List Char) (before : List Nat) (rest : List Char) :
    units? before (cs.flatMap escape ++ '"' :: rest) =
      some (before.reverse ++ cs.map Char.toNat, rest) := by
  induction cs generalizing before with
  | nil => rw [List.flatMap_nil, List.nil_append, units?, List.map_nil, List.append_nil]
  | cons c cs ih =>
    rw [List.flatMap_cons, List.append_assoc, units?_escape, ih, List.reverse_cons,
      List.append_assoc, List.singleton_append, List.map_cons]

/-- No character has the code of a surrogate. -/
theorem join?_toNat (cs before : List Char) :
    join? before (cs.map Char.toNat) = some (before.reverse ++ cs) := by
  induction cs generalizing before with
  | nil => rw [List.map_nil, join?, List.append_nil]
  | cons c cs ih =>
    have hv : c.toNat < 0xD800 ∨ 0xDFFF < c.toNat ∧ c.toNat < 0x110000 := c.valid
    rw [List.map_cons, join?.eq_def]
    dsimp only
    rw [if_neg (by omega), if_neg (by omega), ih, Char.ofNat_toNat, List.reverse_cons,
      List.append_assoc, List.singleton_append]

/-- A string literal is read back, also one that names no text. -/
theorem literal?_quoted (text : Option String) (rest : List Char) :
    ∃ cs, quoted text ++ rest = '"' :: cs ∧ literal? cs = some (text, rest) := by
  cases text with
  | none =>
    refine ⟨'\\' :: 'u' :: 'd' :: '8' :: '0' :: '0' :: '"' :: rest, rfl, ?_⟩
    have h : units? [] ('\\' :: 'u' :: 'd' :: '8' :: '0' :: '0' :: '"' :: rest) =
        some ([0xD800], rest) := rfl
    unfold literal?
    rw [h]
    rfl
  | some s =>
    refine ⟨s.toList.flatMap escape ++ '"' :: rest, ?_, ?_⟩
    · show '"' :: (s.toList.flatMap escape ++ ['"'] ++ rest) = _
      rw [List.append_assoc, List.singleton_append]
    · unfold literal?
      rw [units?_flatMap_escape, Option.map_some, List.reverse_nil, List.nil_append]
      dsimp only
      rw [join?_toNat, List.reverse_nil, List.nil_append, Option.map_some, String.ofList_toList]

theorem quoted_ne_nil (text : Option String) : quoted text ≠ [] := by
  cases text <;> nofun

/-! ## Numbers -/

/-- A row of at least one digit. -/
def IsDigits (ds : List Char) : Prop :=
  ds ≠ [] ∧ ∀ c ∈ ds, c.isDigit = true

/-- The whole part of a number: a zero alone, or digits that begin with another one. -/
inductive IsWhole : List Char → Prop
  | zero : IsWhole ['0']
  | row {c : Char} {cs : List Char} (h : IsDigits (c :: cs)) (hc : c ≠ '0') : IsWhole (c :: cs)

/-- The fraction that a number may have. -/
inductive IsFraction : List Char → Prop
  | none : IsFraction []
  | point {ds : List Char} (h : IsDigits ds) : IsFraction ('.' :: ds)

/-- The exponent that a number may have. -/
inductive IsPower : List Char → Prop
  | none : IsPower []
  | plain {c : Char} {ds : List Char} (hc : c = 'e' ∨ c = 'E') (h : IsDigits ds) :
    IsPower (c :: ds)
  | signed {c s : Char} {ds : List Char} (hc : c = 'e' ∨ c = 'E') (hs : s = '+' ∨ s = '-')
    (h : IsDigits ds) : IsPower (c :: s :: ds)

/-- A number: perhaps a minus sign, a whole part, perhaps a fraction and perhaps an exponent. -/
inductive IsNumber : List Char → Prop
  | mk {sign whole fraction power : List Char} (hs : sign = [] ∨ sign = ['-'])
    (hw : IsWhole whole) (hf : IsFraction fraction) (hp : IsPower power) :
    IsNumber (sign ++ whole ++ fraction ++ power)

theorem IsDigits.isDigit_of_append {ds rest more : List Char} {c : Char} (h : IsDigits ds)
    (he : ds ++ rest = c :: more) : c.isDigit = true := by
  obtain ⟨hn, hd⟩ := h
  cases ds with
  | nil => exact absurd rfl hn
  | cons d ds =>
    cases he
    exact hd c (List.mem_cons_self ..)

theorem digits?_append {ds rest : List Char} (h : IsDigits ds)
    (hr : ∀ c ∈ rest.head?, c.isDigit = false) : digits? (ds ++ rest) = some (ds, rest) := by
  unfold digits?
  rw [Text.takeWhile_append h.2 hr, Text.dropWhile_append h.2 hr]
  obtain ⟨hn, -⟩ := h
  cases ds with
  | nil => exact absurd rfl hn
  | cons c cs => rfl

theorem IsWhole.head {whole : List Char} (h : IsWhole whole) :
    ∃ c more, whole = c :: more ∧ c.isDigit = true := by
  cases h with
  | zero => exact ⟨'0', [], rfl, by decide⟩
  | row h => exact ⟨_, _, rfl, h.2 _ (List.mem_cons_self ..)⟩

theorem whole?_append {whole rest : List Char} (h : IsWhole whole)
    (hr : ∀ c ∈ rest.head?, c.isDigit = false) : whole? (whole ++ rest) = some (whole, rest) := by
  cases h with
  | zero => rfl
  | row h hc =>
    rw [← digits?_append h hr, whole?.eq_def]
    split
    · next he => exact absurd (List.cons.inj he).1 hc
    · rfl

theorem fraction?_append {fraction rest : List Char} (h : IsFraction fraction)
    (hr : ∀ c ∈ rest.head?, c.isDigit = false ∧ c ≠ '.') :
    fraction? (fraction ++ rest) = some (fraction, rest) := by
  cases h with
  | none =>
    rw [List.nil_append, fraction?.eq_def]
    split
    · exact absurd rfl (hr _ rfl).2
    · rfl
  | point h =>
    rw [List.cons_append, fraction?, digits?_append h fun c hc => (hr c hc).1]
    rfl

theorem power?_append {power rest : List Char} (h : IsPower power)
    (hr : ∀ c ∈ rest.head?, c.isDigit = false ∧ c ≠ 'e' ∧ c ≠ 'E') :
    power? (power ++ rest) = some (power, rest) := by
  have hd : ∀ c ∈ rest.head?, c.isDigit = false := fun c hc => (hr c hc).1
  rw [power?.eq_def]
  cases h with
  | none =>
    cases rest with
    | nil => rfl
    | cons c cs =>
      have hc := hr c rfl
      exact if_neg (by simp [hc])
  | plain hc h =>
    rw [List.cons_append]
    dsimp only
    rw [if_pos hc]
    split
    · next he => exact absurd (h.isDigit_of_append he) (by decide)
    · next he => exact absurd (h.isDigit_of_append he) (by decide)
    · rw [digits?_append h hd]
      rfl
  | signed hc hs h =>
    rw [List.cons_append, List.cons_append]
    dsimp only
    rw [if_pos hc]
    have hds := digits?_append h hd
    obtain rfl | rfl := hs
    · show (digits? _).map _ = _
      rw [hds]
      rfl
    · show (digits? _).map _ = _
      rw [hds]
      rfl

theorem IsPower.follows {power rest : List Char} (h : IsPower power) (hr : Follows closers rest) :
    Follows ('e' :: 'E' :: closers) (power ++ rest) := by
  cases h with
  | none => exact hr.mono fun _ hc => List.mem_cons_of_mem _ (List.mem_cons_of_mem _ hc)
  | plain hc | signed hc =>
    refine follows_cons ?_ _
    obtain rfl | rfl := hc <;> decide

theorem IsFraction.follows {fraction rest : List Char} (h : IsFraction fraction)
    (hr : Follows ('e' :: 'E' :: closers) rest) :
    Follows ('.' :: 'e' :: 'E' :: closers) (fraction ++ rest) := by
  cases h with
  | none => exact hr.mono fun _ => List.mem_cons_of_mem _
  | point => exact follows_cons (by decide) _

theorem IsNumber.head {cs : List Char} (h : IsNumber cs) :
    ∃ c more, cs = c :: more ∧ (c = '-' ∨ c.isDigit = true) := by
  obtain ⟨hs, hw, -, -⟩ := h
  obtain rfl | rfl := hs
  · obtain ⟨c, more, rfl, hc⟩ := hw.head
    exact ⟨c, _, rfl, .inr hc⟩
  · exact ⟨'-', _, rfl, .inl rfl⟩

/-- A number is read back in front of anything that does not go on with it. -/
theorem number?_append {cs rest : List Char} (h : IsNumber cs) (hr : Follows closers rest) :
    number? (cs ++ rest) = some (.number (String.ofList cs), rest) := by
  obtain @⟨sign, whole, fraction, power, hs, hw, hf, hp⟩ := h
  have hpr := hp.follows hr
  have hfr := hf.follows hpr
  have h1 : whole? (whole ++ (fraction ++ (power ++ rest))) =
      some (whole, fraction ++ (power ++ rest)) := by
    refine whole?_append hw fun c hc => ?_
    exact (by simp [closers] : ∀ c ∈ '.' :: 'e' :: 'E' :: closers, c.isDigit = false) c (hfr c hc)
  have h2 : fraction? (fraction ++ (power ++ rest)) = some (fraction, power ++ rest) := by
    refine fraction?_append hf fun c hc => ?_
    exact (by simp [closers] : ∀ c ∈ 'e' :: 'E' :: closers, c.isDigit = false ∧ c ≠ '.') c (hpr c hc)
  have h3 : power? (power ++ rest) = some (power, rest) := by
    refine power?_append hp fun c hc => ?_
    exact (by simp [closers] : ∀ c ∈ closers, c.isDigit = false ∧ c ≠ 'e' ∧ c ≠ 'E') c (hr c hc)
  unfold number?
  rw [List.append_assoc, List.append_assoc, List.append_assoc]
  obtain rfl | rfl := hs
  · split
    next he =>
    split at he
    · next hm =>
      obtain ⟨c, more, rfl, hc⟩ := hw.head
      rw [(List.cons.inj hm).1] at hc
      exact absurd hc (by decide)
    · cases he
      simp only [List.nil_append, h1, h2, h3, Option.bind_eq_bind, Option.bind_some]
  · simp only [List.singleton_append, h1, h2, h3, Option.bind_eq_bind, Option.bind_some]

/-- The numeral of a natural number is a literal. -/
theorem isNumber_ofNat (n : Nat) : IsNumber (Numeral.ofNat n) := by
  obtain ⟨c, cs, h, h0⟩ := Numeral.ofNat_head n
  have hw : IsWhole (Numeral.ofNat n) := by
    by_cases hc : c = '0'
    · have hz : Numeral.ofNat 0 = ['0'] := by
        rw [Numeral.ofNat]
        decide
      rw [h0 hc, hz]
      exact .zero
    · have hd : IsDigits (Numeral.ofNat n) :=
        ⟨by simp [h], fun c hc => Numeral.isDigit_of_mem_ofNat n hc⟩
      rw [h] at hd ⊢
      exact .row hd hc
  have hn := IsNumber.mk (.inl rfl) hw .none .none
  rwa [List.nil_append, List.append_nil, List.append_nil] at hn

end GemLink.Json
