import Mathlib.Data.List.TakeWhile
import SqlTree.Json.Printer
import SqlTree.Json.Spelling

/-!
# Numbers are read back

The text of an integer is a numeral that stands for it: its digits have no leading zero, all of them
fit 64 bits, and there is neither a fraction nor an exponent. A binary64 number is read by rounding
twice and does not always come back, so for these it is taken from outside that the text alone is
read back. Either way the same numeral is read if other text follows, as long as the numeral does
not go on there.

## Main definitions

* `Spelling.Stops`: a text that a numeral does not go on with.
* `Number.Valid`: the integers of 64 bits, and the binary64 numbers that are read back.

## Main results

* `Spelling.readNumeral_append`: a numeral is read up to where it stops.
* `Number.Valid.exists_numeral`: the text of a valid number is a numeral that stands for it.
-/

namespace SqlTree

namespace Spelling

variable {s t : List Char}

/-- A numeral does not go on with this text. -/
def Stops (t : List Char) : Prop :=
  ∀ c ∈ t.head?, c.isDigit = false ∧ c ≠ '.' ∧ c ≠ 'e' ∧ c ≠ 'E'

theorem stops_nil : Stops [] := nofun

/-! ### Where a numeral stops -/

theorem Stops.takeWhile (ht : Stops t) : t.takeWhile Char.isDigit = [] := by
  cases t with
  | nil => rfl
  | cons c t => rw [List.takeWhile_cons_of_neg (by simp [(ht c rfl).1])]

theorem Stops.dropWhile (ht : Stops t) : t.dropWhile Char.isDigit = t := by
  cases t with
  | nil => rfl
  | cons c t => rw [List.dropWhile_cons_of_neg (by simp [(ht c rfl).1])]

theorem readDigits_append (ht : Stops t) (s : List Char) :
    readDigits (s ++ t) = ((readDigits s).1, (readDigits s).2 ++ t) := by
  induction s with
  | nil => simp [readDigits, ht.takeWhile, ht.dropWhile]
  | cons c s ih =>
    cases hc : c.isDigit with
    | true => simpa [readDigits, hc] using ih
    | false => simp [readDigits, hc]

theorem readSomeDigits_eq_some {ds : List Nat} {r : List Char} :
    readSomeDigits s = some (ds, r) ↔ ds ≠ [] ∧ readDigits s = (ds, r) := by
  rw [readSomeDigits]
  split
  · next r' heq =>
    rw [heq]
    exact ⟨nofun, fun ⟨hne, h⟩ => absurd (Prod.mk.inj h).1.symm hne⟩
  · next hne =>
    refine ⟨fun h => ?_, fun h => congrArg some h.2⟩
    have heq := Option.some.inj h
    exact ⟨fun hnil => hne r (by rw [heq, hnil]), heq⟩

/-- What a reader leaves is the end of its text, and text that no numeral goes on with is left as
well. -/
def ReadsUpTo {α : Type} (read : List Char → Option (α × List Char)) : Prop :=
  ∀ {s v r}, read s = some (v, r) → r <:+ s ∧ ∀ t, Stops t → read (s ++ t) = some (v, r ++ t)

theorem readsUpTo_someDigits : ReadsUpTo readSomeDigits := by
  intro s ds r h
  obtain ⟨hne, h⟩ := readSomeDigits_eq_some.mp h
  constructor
  · rw [← (Prod.mk.inj h).2]
    exact List.dropWhile_suffix _
  · intro t ht
    exact readSomeDigits_eq_some.mpr ⟨hne, by rw [readDigits_append ht, h]⟩

theorem readsUpTo_whole : ReadsUpTo readWhole := by
  intro s ds r h
  cases s with
  | nil => exact absurd h nofun
  | cons c s =>
    by_cases hc : c = '0'
    · subst hc
      obtain ⟨rfl, rfl⟩ := Prod.mk.inj (Option.some.inj h)
      exact ⟨List.suffix_cons _ _, fun _ _ => rfl⟩
    · have hne : ∀ s r, c :: s = '0' :: r → False := fun _ _ heq => hc (List.cons.inj heq).1
      rw [readWhole.eq_2 _ (hne s)] at h
      obtain ⟨hsuffix, happend⟩ := readsUpTo_someDigits h
      refine ⟨hsuffix, fun t ht => ?_⟩
      rw [List.cons_append, readWhole.eq_2 _ (hne _)]
      exact happend t ht

theorem readsUpTo_fraction : ReadsUpTo readFraction := by
  intro s ds r h
  rw [readFraction.eq_def] at h
  split at h
  · next rest =>
    obtain ⟨⟨digits, rest'⟩, hdigits, heq⟩ := Option.map_eq_some_iff.mp h
    obtain ⟨rfl, rfl⟩ := Prod.mk.inj heq
    obtain ⟨hsuffix, happend⟩ := readsUpTo_someDigits hdigits
    refine ⟨hsuffix.trans (List.suffix_cons _ _), fun t ht => ?_⟩
    rw [List.cons_append, readFraction, happend t ht]
    rfl
  · next hpoint =>
    obtain ⟨rfl, rfl⟩ := Prod.mk.inj (Option.some.inj h)
    refine ⟨List.suffix_rfl, fun t ht => ?_⟩
    rw [readFraction]
    intro rest heq
    cases s with
    | nil => exact (ht '.' (by rw [show t = _ from heq]; rfl)).2.1 rfl
    | cons c s => exact hpoint s (by rw [(List.cons.inj heq).1])

theorem readSign_append (c : Char) (s : List Char) : (readSign (c :: s)).2 <:+ c :: s ∧
    ∀ t, readSign (c :: s ++ t) = ((readSign (c :: s)).1, (readSign (c :: s)).2 ++ t) := by
  by_cases hplus : c = '+'
  · subst hplus
    exact ⟨List.suffix_cons _ _, fun _ => rfl⟩
  · by_cases hminus : c = '-'
    · subst hminus
      exact ⟨List.suffix_cons _ _, fun _ => rfl⟩
    · have hsign : ∀ s, readSign (c :: s) = (false, c :: s) := fun s =>
        readSign.eq_3 _ (fun _ heq => hplus (List.cons.inj heq).1)
          fun _ heq => hminus (List.cons.inj heq).1
      refine ⟨?_, fun t => ?_⟩
      · simp only [hsign, List.suffix_rfl]
      · simp only [List.cons_append, hsign]

theorem readsUpTo_exponent : ReadsUpTo readExponent := by
  intro s e r h
  cases s with
  | nil =>
    obtain ⟨rfl, rfl⟩ := Prod.mk.inj (Option.some.inj h)
    refine ⟨List.suffix_rfl, fun t ht => ?_⟩
    cases t with
    | nil => rfl
    | cons c t => simp [readExponent, (ht c rfl).2.2]
  | cons c s =>
    simp only [List.cons_append, readExponent] at h ⊢
    by_cases he : c = 'e' ∨ c = 'E'
    · simp only [if_pos he] at h ⊢
      obtain ⟨⟨digits, rest⟩, hdigits, heq⟩ := Option.map_eq_some_iff.mp h
      obtain ⟨rfl, rfl⟩ := Prod.mk.inj heq
      cases s with
      | nil => exact absurd hdigits nofun
      | cons d s =>
        obtain ⟨hsuffix, happend⟩ := readsUpTo_someDigits hdigits
        obtain ⟨hsign, hsignAppend⟩ := readSign_append d s
        refine ⟨(hsuffix.trans hsign).trans (List.suffix_cons _ _), fun t ht => ?_⟩
        rw [hsignAppend, happend t ht]
        rfl
    · simp only [if_neg he] at h ⊢
      obtain ⟨rfl, rfl⟩ := Prod.mk.inj (Option.some.inj h)
      exact ⟨List.suffix_rfl, fun _ _ => rfl⟩

theorem readsUpTo_unsigned (negative : Bool) : ReadsUpTo (readUnsigned negative) := by
  intro s n r h
  simp only [readUnsigned, Option.bind_eq_bind, Option.bind_eq_some_iff] at h ⊢
  obtain ⟨⟨whole, s₁⟩, hwhole, ⟨fraction, s₂⟩, hfraction, ⟨exponent, s₃⟩, hexponent, h⟩ := h
  obtain ⟨rfl, rfl⟩ := Prod.mk.inj (Option.some.inj h)
  obtain ⟨hs₁, hwhole⟩ := readsUpTo_whole hwhole
  obtain ⟨hs₂, hfraction⟩ := readsUpTo_fraction hfraction
  obtain ⟨hs₃, hexponent⟩ := readsUpTo_exponent hexponent
  exact ⟨(hs₃.trans hs₂).trans hs₁, fun t ht =>
    ⟨_, hwhole t ht, _, hfraction t ht, _, hexponent t ht, rfl⟩⟩

/-- A numeral is read up to where it stops. -/
theorem readsUpTo_numeral : ReadsUpTo readNumeral := by
  intro s n r h
  cases s with
  | nil => exact absurd h nofun
  | cons c s =>
    by_cases hc : c = '-'
    · subst hc
      obtain ⟨hsuffix, happend⟩ := readsUpTo_unsigned true h
      exact ⟨hsuffix.trans (List.suffix_cons _ _), happend⟩
    · have hne : ∀ s r, c :: s = '-' :: r → False := fun _ _ heq => hc (List.cons.inj heq).1
      rw [readNumeral.eq_2 _ (hne s)] at h
      obtain ⟨hsuffix, happend⟩ := readsUpTo_unsigned false h
      refine ⟨hsuffix, fun t ht => ?_⟩
      rw [List.cons_append, readNumeral.eq_2 _ (hne _)]
      exact happend t ht

end Spelling

namespace Number

open Spelling

/-! ### Integers -/

/-- Only zero has a leading zero. -/
theorem head?_toDigits {n : Nat} (hn : n ≠ 0) : (Nat.toDigits 10 n).head? ≠ some '0' := by
  induction n using Nat.strongRecOn with
  | _ n ih =>
    by_cases hlt : n < 10
    · have hdigit : ∀ m < 10, m ≠ 0 → some m.digitChar ≠ some '0' := by decide
      rw [Nat.toDigits_of_lt_base hlt]
      exact hdigit n hlt hn
    · have hhead := ih (n / 10) (by omega) (by omega)
      rw [Nat.toDigits_of_base_le (by omega) (by omega)]
      obtain ⟨c, cs, heq⟩ := List.exists_cons_of_ne_nil (Nat.toDigits_ne_nil (n := n / 10))
      rw [heq] at hhead ⊢
      exact hhead

theorem digitsValue_map_digit (cs : List Char) :
    digitsValue (cs.map digit) = Nat.ofDigitChars 10 cs 0 := by
  rw [digitsValue, Nat.ofDigitChars_eq_foldl, List.foldl_map]
  simp only [digit, Nat.mul_comm]
  rfl

/-- All digits of a number below `2 ^ 64` are taken. -/
theorem accumulate_eq {value : Nat} {ds : List Nat}
    (h : ds.foldl (fun n d => n * 10 + d) value < Nat.pow 2 64) :
    Numeral.accumulate value ds = (ds.foldl (fun n d => n * 10 + d) value, ds.length) := by
  induction ds generalizing value with
  | nil => rfl
  | cons d ds ih =>
    have hle : ∀ (ds : List Nat) (v : Nat), v ≤ ds.foldl (fun n d => n * 10 + d) v := by
      intro ds
      induction ds with
      | nil => exact Nat.le_refl
      | cons d ds ih => exact fun v => Nat.le_trans (by omega) (ih (v * 10 + d))
    rw [Numeral.accumulate, if_pos (Nat.lt_of_le_of_lt (hle ds _) h), ih h]
    rfl

/-- The numeral of the digits of a number. -/
theorem readUnsigned_toDigits (negative : Bool) (n : Nat) :
    readUnsigned negative (Nat.toDigits 10 n) =
      some (⟨negative, (Nat.toDigits 10 n).map digit, none, none⟩, []) := by
  have hdigits : readDigits (Nat.toDigits 10 n) = ((Nat.toDigits 10 n).map digit, []) := by
    have hall : ∀ c ∈ Nat.toDigits 10 n, c.isDigit = true :=
      fun c hc => Nat.isDigit_of_mem_toDigits (by omega) (by omega) hc
    rw [readDigits, List.takeWhile_eq_self_iff.mpr hall, List.dropWhile_eq_nil_iff.mpr hall]
  have hwhole : readWhole (Nat.toDigits 10 n) = some ((Nat.toDigits 10 n).map digit, []) := by
    by_cases hn : n = 0
    · subst hn
      rfl
    · rw [readWhole]
      · exact readSomeDigits_eq_some.mpr
          ⟨fun h => Nat.toDigits_ne_nil (List.map_eq_nil_iff.mp h), hdigits⟩
      · intro r heq
        exact head?_toDigits hn (by rw [heq]; rfl)
  rw [readUnsigned, hwhole]
  rfl

theorem number?_toDigits {negative : Bool} {n : Nat} (h : n < Nat.pow 2 64) :
    Numeral.number? ⟨negative, (Nat.toDigits 10 n).map digit, none, none⟩ =
      some (Numeral.integer negative n) := by
  have hvalue : ((Nat.toDigits 10 n).map digit).foldl (fun n d => n * 10 + d) 0 = n := by
    have heq := digitsValue_map_digit (Nat.toDigits 10 n)
    rw [Nat.ofDigitChars_toDigits (by omega) (by omega)] at heq
    exact heq
  have hall : Numeral.accumulate 0 _ = _ := accumulate_eq (hvalue.symm ▸ h)
  simp only [Numeral.number?, hall, hvalue, Nat.sub_self]

/-! ### Valid numbers -/

/-- A number is a numeral that stands for it. -/
def SpelledBy (n : Number) (numeral : Numeral) : Prop :=
  readNumeral n.text.toList = some (numeral, []) ∧ numeral.number? = some n

/-- The numbers that documents hold: a negative integer has 64 bits, and a binary64 number is one
that comes back from its text. -/
def Valid : Number → Prop
  | natural _ => True
  | negative absolute => 0 < absolute.toNat ∧ absolute.toNat ≤ Nat.pow 2 63
  | float bits => Json.read (Json.number (.float bits)).text = some (.number (.float bits))

theorem spelledBy_natural (value : UInt64) :
    (natural value).SpelledBy ⟨false, (Nat.toDigits 10 value.toNat).map digit, none, none⟩ := by
  constructor
  · rw [text, Nat.toString_eq_ofList_toDigits, String.toList_ofList]
    have hdigit : ∀ r, Nat.toDigits 10 value.toNat ≠ '-' :: r := by
      intro r heq
      have hminus : ('-').isDigit = true :=
        Nat.isDigit_of_mem_toDigits (b := 10) (n := value.toNat) (by omega) (by omega)
          (by rw [heq]; exact List.mem_cons_self)
      exact absurd hminus nofun
    rw [readNumeral]
    · exact readUnsigned_toDigits false value.toNat
    · exact fun r heq => hdigit r heq
  · rw [number?_toDigits value.toNat_lt]
    simp [Numeral.integer]

theorem spelledBy_negative {absolute : UInt64} (h : (negative absolute).Valid) :
    (negative absolute).SpelledBy
      ⟨true, (Nat.toDigits 10 absolute.toNat).map digit, none, none⟩ := by
  constructor
  · rw [text, String.toList_append, Nat.toString_eq_ofList_toDigits, String.toList_ofList,
      String.toList_ofList]
    exact readUnsigned_toDigits true absolute.toNat
  · rw [number?_toDigits absolute.toNat_lt]
    simp only [Valid] at h
    simp [Numeral.integer, h]

/-! ### Binary64 numbers -/

/-- The characters of numerals. -/
def IsNumeral (c : Char) : Prop := c.isDigit = true ∨ c = '-' ∨ c = '+' ∨ c = '.' ∨ c = 'e'

instance : DecidablePred IsNumeral := fun _ => inferInstanceAs (Decidable (_ ∨ _))

theorem isNumeral_toDigits (n : Nat) : ∀ c ∈ Nat.toDigits 10 n, IsNumeral c :=
  fun _ hc => .inl (Nat.isDigit_of_mem_toDigits (by omega) (by omega) hc)

theorem isNumeral_zeros (n : Nat) : ∀ c ∈ List.replicate n '0', IsNumeral c := by
  intro c hc
  rw [List.eq_of_mem_replicate hc]
  decide

theorem isNumeral_decimalText (digits : Nat) (exponent : Int) :
    ∀ c ∈ (decimalText digits exponent).toList, IsNumeral c := by
  have hfigures := isNumeral_toDigits digits
  have htake : ∀ k, ∀ c ∈ (Nat.toDigits 10 digits).take k, IsNumeral c :=
    fun k c hc => hfigures c (List.mem_of_mem_take hc)
  have hdrop : ∀ k, ∀ c ∈ (Nat.toDigits 10 digits).drop k, IsNumeral c :=
    fun k c hc => hfigures c (List.mem_of_mem_drop hc)
  have hzeros := isNumeral_zeros
  have hsize : ∀ k : Nat, ∀ c ∈ (toString k).toList, IsNumeral c := by
    intro k
    rw [Nat.toString_eq_ofList_toDigits, String.toList_ofList]
    exact isNumeral_toDigits k
  have hmarks : ∀ mark ∈ [".0", ".", "0.", "e", "+", "-"], ∀ c ∈ mark.toList, IsNumeral c := by
    simp [IsNumeral]
  simp only [List.forall_mem_cons] at hmarks
  obtain ⟨hpointZero, hpoint, hzeroPoint, he, hplus, hminus, -⟩ := hmarks
  simp only [decimalText]
  split
  · split
    · simp only [String.toList_append, String.toList_ofList, List.forall_mem_append]
      exact ⟨⟨hfigures, hzeros _⟩, hpointZero⟩
    · split
      · simp only [String.toList_append, String.toList_ofList, List.forall_mem_append]
        exact ⟨⟨htake _, hpoint⟩, hdrop _⟩
      · simp only [String.toList_append, String.toList_ofList, List.forall_mem_append]
        exact ⟨hzeroPoint, hzeros _, hfigures⟩
  · simp only [String.toList_append, List.forall_mem_append]
    refine ⟨⟨⟨?_, he⟩, ?_⟩, hsize _⟩
    · split
      · simpa only [String.toList_ofList] using htake 1
      · simp only [String.toList_append, String.toList_ofList, List.forall_mem_append]
        exact ⟨⟨htake 1, hpoint⟩, hdrop 1⟩
    · split
      · exact hminus
      · exact hplus

theorem isNumeral_floatText (bits : UInt64) : ∀ c ∈ (floatText bits).toList, IsNumeral c := by
  have hsign : ∀ c ∈ (if Nat.pow 2 63 ≤ bits.toNat then "-" else "").toList, IsNumeral c := by
    split <;> simp [IsNumeral]
  simp only [floatText]
  split
  · rw [String.toList_append, List.forall_mem_append]
    exact ⟨hsign, by simp [IsNumeral]⟩
  · rw [String.toList_append, List.forall_mem_append]
    exact ⟨hsign, isNumeral_decimalText _ _⟩

theorem isNumeral_text (n : Number) : ∀ c ∈ n.text.toList, IsNumeral c := by
  cases n with
  | natural value =>
    rw [text, Nat.toString_eq_ofList_toDigits, String.toList_ofList]
    exact isNumeral_toDigits value.toNat
  | negative absolute =>
    rw [text, String.toList_append, Nat.toString_eq_ofList_toDigits, String.toList_ofList,
      String.toList_ofList, List.forall_mem_append]
    exact ⟨by simp [IsNumeral], isNumeral_toDigits absolute.toNat⟩
  | float bits => exact isNumeral_floatText bits

theorem not_isNumeral : ∀ c ∈ [' ', '\t', '\n', '\r', 'n', 't', 'f', '"', '[', '\x7b'],
    ¬IsNumeral c := by
  simp [IsNumeral]

theorem IsNumeral.ne_bracket {c : Char} (h : IsNumeral c) : c ≠ ']' := by
  rintro rfl
  exact absurd h (by decide)

theorem IsNumeral.not_isBlank {c : Char} (h : IsNumeral c) : ¬isBlank c = true := by
  have hne := not_isNumeral
  intro hb
  simp only [isBlank, Bool.or_eq_true, beq_iff_eq] at hb
  rcases hb with ((rfl | rfl) | rfl) | rfl <;> exact hne _ (by decide) h

theorem skipBlanks_of_isNumeral {s : List Char} (h : ∀ c ∈ s, IsNumeral c) : skipBlanks s = s := by
  cases s with
  | nil => rfl
  | cons c s =>
    exact List.dropWhile_cons_of_neg (h c List.mem_cons_self).not_isBlank

/-- A value that begins like a numeral is one. -/
theorem readValue_of_isNumeral {c : Char} (h : IsNumeral c) (fuel : Nat) (s : List Char) :
    readValue (fuel + 1) (c :: s) =
      (readNumeral (c :: s)).map fun (value, rest) => (numeral value, rest) := by
  have hne := not_isNumeral
  rw [readValue.eq_8]
  all_goals
    intro r heq
    obtain ⟨rfl, -⟩ := List.cons.inj heq
    exact hne _ (by decide) h

/-- The text of a valid number is a numeral that stands for it. -/
theorem Valid.exists_numeral {n : Number} (h : n.Valid) : ∃ numeral, n.SpelledBy numeral := by
  cases n with
  | natural value => exact ⟨_, spelledBy_natural value⟩
  | negative absolute => exact ⟨_, spelledBy_negative h⟩
  | float bits =>
    have hall := isNumeral_text (.float bits)
    obtain ⟨spelling, hread, hjson⟩ := Option.bind_eq_some_iff.mp h
    rw [Json.text, Spelling.read, skipBlanks_of_isNumeral hall] at hread
    cases hs : (text (.float bits)).toList with
    | nil =>
      rw [hs] at hread
      exact absurd hread nofun
    | cons c s =>
      rw [hs] at hread hall
      rw [readValue_of_isNumeral (hall c List.mem_cons_self)] at hread
      split at hread
      · next value rest hvalue =>
        obtain ⟨⟨n, r⟩, hn, heq⟩ := Option.map_eq_some_iff.mp hvalue
        obtain ⟨rfl, rfl⟩ := Prod.mk.inj heq
        have hrest : skipBlanks r = r := skipBlanks_of_isNumeral fun c hc =>
          hall c ((readsUpTo_numeral hn).1.subset hc)
        rw [hrest] at hread
        split at hread
        · next hnil =>
          obtain rfl := Option.some.inj hread
          refine ⟨n, by rw [hs, hn, hnil], ?_⟩
          obtain ⟨m, hm, heq⟩ := Option.map_eq_some_iff.mp hjson
          rw [hm, Json.number.inj heq]
        · cases hread
      · cases hread

end Number

end SqlTree
