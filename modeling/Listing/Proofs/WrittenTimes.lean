import Mathlib
import Listing.Column.Value
import Listing.Proofs.Chronology
import Listing.Proofs.WrittenNumbers

/-! Dates, times and moments that are written and read again.
Every field is written in a fixed number of digits, so each is read on its own and leaves the rest of
the text to the next one. An offset of less than a second is read as zero; everything else comes back
as it was written. -/
namespace Listing

namespace Number
open Text

theorem asciiDigit?_digitChar {d : Nat} (h : d < 10) : asciiDigit? (digitChar d) = some d := by
  have hall : ∀ d : Fin 10, asciiDigit? (digitChar d) = some d.val := by decide
  exact hall ⟨d, h⟩

theorem isDigit_digitChar {d : Nat} (h : d < 10) : (digitChar d).isDigit = true := by
  have hall : ∀ d : Fin 10, (digitChar d).isDigit = true := by decide
  exact hall ⟨d, h⟩

theorem isDigits_fixed (width n : Nat) : IsDigits (fixed width n) := by
  induction width generalizing n with
  | zero => exact List.forall_mem_nil _
  | succ width ih =>
    have hlast := isDigit_digitChar (Nat.mod_lt n (show 0 < 10 by decide))
    exact List.forall_mem_append.mpr ⟨ih (n / 10), List.forall_mem_singleton.mpr hlast⟩

theorem takeFixed_succ {width n d : Nat} {c : Char} {s r : List Char}
    (h : takeFixed width s = some (n, c :: r)) (hc : asciiDigit? c = some d) :
    takeFixed (width + 1) s = some (10 * n + d, r) := by
  induction width generalizing s n with
  | zero =>
    cases h
    simp [takeFixed, hc]
  | succ width ih =>
    cases s with
    | nil => cases h
    | cons a s =>
      simp only [takeFixed, Option.bind_eq_bind, Option.bind_eq_some_iff, Option.pure_def,
        Option.some.injEq] at h
      obtain ⟨x, hx, ⟨k, rest⟩, hrest, hresult⟩ := h
      obtain ⟨rfl, rfl⟩ := Prod.mk.inj hresult
      rw [takeFixed, hx, Option.bind_eq_bind, Option.bind_some, ih hrest]
      simp only [Option.bind_eq_bind, Option.bind_some, Option.pure_def, Option.some.injEq,
        Prod.mk.injEq, and_true, tenTo_succ]
      ring

theorem takeFixed_fixed {width n : Nat} (h : n < 10 ^ width) (r : List Char) :
    takeFixed width (fixed width n ++ r) = some (n, r) := by
  induction width generalizing n r with
  | zero =>
    obtain rfl : n = 0 := by simpa using h
    rfl
  | succ width ih =>
    have hlow : n % 10 < 10 := Nat.mod_lt n (by decide)
    have hhigh : n / 10 < 10 ^ width := by
      rw [pow_succ] at h
      omega
    rw [fixed, List.append_assoc, List.singleton_append,
      takeFixed_succ (ih hhigh _) (asciiDigit?_digitChar hlow), Nat.div_add_mod]

theorem takeFixed_two {n : Nat} (h : n < 100) (r : List Char) :
    takeFixed 2 (fixed 2 n ++ r) = some (n, r) := takeFixed_fixed h r

theorem exists_cons_fixed (width n : Nat) :
    ∃ c r, fixed (width + 1) n = c :: r ∧ c.isDigit = true := by
  have hlength := fixed_length (width + 1) n
  obtain ⟨c, r, hfixed⟩ := List.exists_cons_of_length_eq_add_one hlength
  refine ⟨c, r, hfixed, isDigits_fixed (width + 1) n c ?_⟩
  rw [hfixed]
  exact List.mem_cons_self

end Number

namespace Text

theorem encodeAll_length_of_ascii {s : List Char} (h : ∀ c ∈ s, c.toNat < 0x80) :
    (Utf8.encodeAll s).length = s.length := by
  induction s with
  | nil => rfl
  | cons c s ih =>
    obtain ⟨hc, hs⟩ := List.forall_mem_cons.mp h
    rw [Utf8.encodeAll, List.flatMap_cons, List.length_append, Utf8.encode_of_ascii hc]
    have hrest := ih hs
    rw [Utf8.encodeAll] at hrest
    rw [hrest, List.length_singleton, List.length_cons, Nat.add_comm]

end Text

namespace Calendar
open Number Text

theorem isFigure_fixed (width n : Nat) : ∀ c ∈ fixed width n, IsFigure c :=
  fun c hc => .inl (isDigits_fixed width n c hc)

namespace Date

theorem text_eq (d : Date) :
    d.text = fixed 4 d.year ++ '-' :: (fixed 2 d.month ++ '-' :: fixed 2 d.day) := by
  simp [text]

theorem isFigure_text (d : Date) : ∀ c ∈ d.text, IsFigure c := by
  have hhyphen : IsFigure '-' := by decide
  simp only [text_eq, List.forall_mem_append, List.forall_mem_cons]
  exact ⟨isFigure_fixed _ _, hhyphen, isFigure_fixed _ _, hhyphen, isFigure_fixed _ _⟩

theorem readMonth?_text (d : Date) :
    readMonth? d.year true (fixed 2 d.month ++ '-' :: fixed 2 d.day) = some d := by
  obtain ⟨-, hmonth, hday⟩ := d.bounds
  have hlast := takeFixed_fixed hday []
  rw [List.append_nil] at hlast
  simp [readMonth?, takeFixed_fixed hmonth, afterHyphen, hlast, of?_self]

theorem readPart?_text (d : Date) : readPart? d.text = some d := by
  obtain ⟨hyear, -, -⟩ := d.bounds
  obtain ⟨c, r, hfixed, hdigit⟩ := exists_cons_fixed 1 d.month
  have hnoweek : c ≠ 'W' := ne_of_isDigit hdigit (by decide)
  have hmonth := readMonth?_text d
  rw [hfixed] at hmonth
  simp only [readPart?, text_eq, takeFixed_fixed hyear, Option.bind_eq_bind, Option.bind_some]
  simpa [hfixed, hnoweek] using hmonth

theorem read?_text (d : Date) : read? d.text = some d := by
  have hlength : (Utf8.encodeAll d.text).length = 10 := by
    rw [encodeAll_length_of_ascii fun c hc => (d.isFigure_text c hc).isAscii, text_length]
  rw [read?, hlength, if_pos (by decide), readPart?_text]

end Date

namespace Clock
variable {hour minute second microsecond : Nat} (next : Char)

theorem follow_nil (colons : Bool) : follow next colons [] = .finished (isEnd next) := rfl

theorem follow_colon (n : Nat) (r : List Char) :
    follow next true (':' :: (fixed 2 n ++ r)) = .field (fixed 2 n ++ r) := by
  obtain ⟨c, s, hfixed, -⟩ := exists_cons_fixed 1 n
  rw [hfixed]
  rfl

theorem follow_point (n : Nat) : follow next true ('.' :: fixed 6 n) = .fraction (fixed 6 n) := by
  obtain ⟨c, s, hfixed, -⟩ := exists_cons_fixed 5 n
  rw [hfixed]
  rfl

theorem readFraction?_fixed (h : microsecond < 1000000) :
    readFraction? next (fixed 6 microsecond) = some (microsecond, isEnd next) := by
  have hfixed : takeFixed 6 (fixed 6 microsecond ++ []) = some (microsecond, []) :=
    takeFixed_fixed h []
  rw [List.append_nil] at hfixed
  simp [readFraction?, fixed_length, hfixed, tenTo]

theorem read?_minutes (hhour : hour < 100) (hminute : minute < 100) :
    read? next (fixed 2 hour ++ ':' :: (fixed 2 minute ++ [])) =
      some ⟨hour, minute, 0, 0, isEnd next⟩ := by
  simp only [read?, takeFixed_two hhour, takeFixed_two hminute, follow_colon, follow_nil,
    Option.bind_eq_bind, Option.bind_some, List.head?_cons, Option.getD_some, beq_self_eq_true]
  rfl

theorem read?_seconds (hhour : hour < 100) (hminute : minute < 100) (hsecond : second < 100)
    (hmicrosecond : microsecond < 1000000) :
    read? next (fixed 2 hour ++ ':' :: (fixed 2 minute ++
        ':' :: (fixed 2 second ++ Time.fractionText microsecond))) =
      some ⟨hour, minute, second, microsecond, isEnd next⟩ := by
  simp only [read?, takeFixed_two hhour, takeFixed_two hminute, takeFixed_two hsecond, follow_colon,
    Option.bind_eq_bind, Option.bind_some, List.head?_cons, Option.getD_some, beq_self_eq_true]
  by_cases hzero : microsecond = 0
  · rw [Time.fractionText, if_pos hzero, follow_nil, hzero]
    rfl
  · rw [Time.fractionText, if_neg hzero, follow_point]
    simp only [readFraction?_fixed next hmicrosecond, Option.bind_some]
    rfl

theorem read?_secondsText (hhour : hour < 100) (hminute : minute < 100) (hsecond : second < 100)
    (hmicrosecond : microsecond < 1000000) :
    read? next (fixed 2 hour ++ ':' :: (fixed 2 minute ++ Offset.secondsText second microsecond)) =
      some ⟨hour, minute, second, microsecond, isEnd next⟩ := by
  by_cases hzero : second = 0 ∧ microsecond = 0
  · rw [Offset.secondsText, if_pos hzero, read?_minutes next hhour hminute, hzero.1, hzero.2]
  · rw [Offset.secondsText, if_neg hzero]
    exact read?_seconds next hhour hminute hsecond hmicrosecond

end Clock

namespace Time

theorem text_eq (t : Time) : t.text =
    fixed 2 t.hour ++ ':' :: (fixed 2 t.minute ++
      ':' :: (fixed 2 t.second ++ fractionText t.microsecond)) := by
  simp [text]

theorem read?_text (t : Time) (next : Char) :
    Clock.read? next t.text =
      some ⟨t.hour, t.minute, t.second, t.microsecond, Clock.isEnd next⟩ := by
  obtain ⟨hhour, hminute, hsecond, hmicrosecond⟩ := t.valid
  rw [text_eq]
  apply Clock.read?_seconds <;> omega

theorem ofClock?_self (t : Time) (clean : Bool) :
    ofClock? ⟨t.hour, t.minute, t.second, t.microsecond, clean⟩ = some t := by
  rw [ofClock?, dif_pos t.valid]

theorem isFigure_fractionText (microsecond : Nat) : ∀ c ∈ fractionText microsecond, IsFigure c := by
  have hpoint : IsFigure '.' := by decide
  unfold fractionText
  split
  · exact List.forall_mem_nil _
  · exact List.forall_mem_cons.mpr ⟨hpoint, isFigure_fixed 6 microsecond⟩

theorem isFigure_text (t : Time) : ∀ c ∈ t.text, IsFigure c := by
  have hcolon : IsFigure ':' := by decide
  simp only [text_eq, List.forall_mem_append, List.forall_mem_cons]
  exact ⟨isFigure_fixed _ _, hcolon, isFigure_fixed _ _, hcolon, isFigure_fixed _ _,
    isFigure_fractionText _⟩

end Time

namespace Offset

/-- What is read of an offset: less than a second of it is nothing. -/
def readBack (o : Offset) : Offset := if o.microseconds.natAbs < 1000000 then zero else o

def Readable (o : Offset) : Prop := o.microseconds = 0 ∨ 1000000 ≤ o.microseconds.natAbs

theorem readBack_of_readable {o : Offset} (h : o.Readable) : o.readBack = o := by
  rcases h with hzero | hlarge
  · rcases o with ⟨n, hn⟩
    cases hzero
    rfl
  · rw [readBack, if_neg (by omega)]

def clock (o : Offset) : Clock :=
  let n := o.microseconds.natAbs
  let seconds := n / 1000000
  ⟨seconds / 3600, seconds / 60 % 60, seconds % 60, n % 1000000, true⟩

theorem microseconds_clock (o : Offset) : o.clock.microseconds = o.microseconds.natAbs := by
  simp only [clock, Clock.microseconds]
  omega

theorem ofClock?_clock (o : Offset) :
    ofClock? (o.microseconds < 0) o.clock = some o.readBack := by
  rw [ofClock?, microseconds_clock, applySign_natAbs, readBack]
  split
  · rfl
  · rw [of?, dif_pos o.within]

def signMark (o : Offset) : Char := if o.microseconds < 0 then '-' else '+'

theorem text_eq (o : Offset) : o.text =
    o.signMark :: (fixed 2 o.clock.hour ++ ':' :: (fixed 2 o.clock.minute ++
      secondsText o.clock.second o.clock.microsecond)) := by
  simp [text, signMark, clock]

theorem read?_text (o : Offset) :
    Clock.read? Clock.terminator (fixed 2 o.clock.hour ++ ':' :: (fixed 2 o.clock.minute ++
      secondsText o.clock.second o.clock.microsecond)) = some o.clock := by
  have hwithin := o.within
  have hhour : o.clock.hour < 100 := by
    simp only [clock, dayLength] at hwithin ⊢
    omega
  have hminute : o.clock.minute < 100 := by
    simp only [clock]
    omega
  have hsecond : o.clock.second < 100 := by
    simp only [clock]
    omega
  have hmicrosecond : o.clock.microsecond < 1000000 := Nat.mod_lt _ (by decide)
  exact Clock.read?_secondsText _ hhour hminute hsecond hmicrosecond

theorem signMark_eq (o : Offset) : o.signMark = '-' ∨ o.signMark = '+' := by
  unfold signMark
  split
  · exact .inl rfl
  · exact .inr rfl

theorem signMark_beq (o : Offset) : (o.signMark == '-') = decide (o.microseconds < 0) := by
  unfold signMark
  split <;> simp_all

theorem isOffsetMark_signMark (o : Offset) : DateTime.isOffsetMark o.signMark = true := by
  rcases o.signMark_eq with hmark | hmark <;> rw [hmark] <;> rfl

theorem readOffset?_text (o : Offset) : DateTime.readOffset? o.text = some (some o.readBack) := by
  have hmark : o.signMark ≠ 'Z' := by
    rcases o.signMark_eq with hmark | hmark <;> rw [hmark] <;> decide
  rw [text_eq, DateTime.readOffset?, if_neg hmark, read?_text, Option.bind_eq_bind,
    Option.bind_some, signMark_beq, ofClock?_clock]
  rfl

theorem isFigure_text (o : Offset) : ∀ c ∈ o.text, IsFigure c := by
  have hcolon : IsFigure ':' := by decide
  have hmark : IsFigure o.signMark := by
    rcases o.signMark_eq with hmark | hmark <;> rw [hmark] <;> decide
  have hseconds : ∀ c ∈ secondsText o.clock.second o.clock.microsecond, IsFigure c := by
    unfold secondsText
    split
    · exact List.forall_mem_nil _
    · simp only [List.cons_append, List.forall_mem_append, List.forall_mem_cons]
      exact ⟨hcolon, isFigure_fixed _ _, Time.isFigure_fractionText _⟩
  simp only [text_eq, List.forall_mem_append, List.forall_mem_cons]
  exact ⟨hmark, isFigure_fixed _ _, hcolon, isFigure_fixed _ _, hseconds⟩

end Offset

namespace DateTime

theorem not_isOffsetMark_of_isDigit {c : Char} (h : c.isDigit = true) : isOffsetMark c = false := by
  have hplus : c ≠ '+' := ne_of_isDigit h (by decide)
  have hminus : c ≠ '-' := ne_of_isDigit h (by decide)
  have hletter : c ≠ 'Z' := ne_of_isDigit h (by decide)
  simp [isOffsetMark, hplus, hminus, hletter]

theorem not_isOffsetMark_time (t : Time) : ∀ c ∈ t.text, isOffsetMark c = false := by
  have hfixed (width n : Nat) : ∀ c ∈ fixed width n, isOffsetMark c = false :=
    fun c hc => not_isOffsetMark_of_isDigit (isDigits_fixed width n c hc)
  have hfraction : ∀ c ∈ Time.fractionText t.microsecond, isOffsetMark c = false := by
    unfold Time.fractionText
    split
    · exact List.forall_mem_nil _
    · exact List.forall_mem_cons.mpr ⟨rfl, hfixed _ _⟩
  simp only [Time.text_eq, List.forall_mem_append, List.forall_mem_cons]
  exact ⟨hfixed _ _, rfl, hfixed _ _, rfl, hfixed _ _, hfraction⟩

variable {rest : List Char} {o : Option Offset}

theorem readTime?_append (t : Time) (hrest : ∀ c r, rest = c :: r → isOffsetMark c = true)
    (ho : readOffset? rest = some o) : readTime? (t.text ++ rest) = some (t, o) := by
  have hnot : ∀ c ∈ t.text, (!isOffsetMark c) = true := by simpa using not_isOffsetMark_time t
  have hstop : rest.takeWhile (fun c => !isOffsetMark c) = [] ∧
      rest.dropWhile (fun c => !isOffsetMark c) = rest := by
    cases rest with
    | nil => exact ⟨rfl, rfl⟩
    | cons c r => simp [hrest c r rfl]
  have hfields : (t.text ++ rest).takeWhile (fun c => !isOffsetMark c) = t.text := by
    rw [List.takeWhile_append_of_pos hnot, hstop.1, List.append_nil]
  have hafter : (t.text ++ rest).dropWhile (fun c => !isOffsetMark c) = rest := by
    rw [List.dropWhile_append_of_pos hnot, hstop.2]
  simp only [readTime?, hfields, hafter, Time.read?_text, ho, Time.ofClock?_self,
    Option.bind_eq_bind, Option.bind_some]
  cases rest <;> rfl

theorem dateEnd_append (d : Date) (s : List Char) : dateEnd (d.text ++ s) = 10 := by
  have hlength : (d.text ++ s).length ≠ 7 := by
    rw [List.length_append, Date.text_length]
    omega
  obtain ⟨c, r, hmonth, hdigit⟩ := exists_cons_fixed 1 d.month
  have hhyphen : (d.text ++ s)[4]? = some '-' := by
    simp [Date.text_eq, fixed_length]
  have hnoweek : (d.text ++ s)[5]? ≠ some 'W' := by
    have hc : c ≠ 'W' := ne_of_isDigit hdigit (by decide)
    simpa [Date.text_eq, List.getElem?_append, fixed_length, hmonth] using hc
  rw [dateEnd, if_neg hlength, if_pos hhyphen, if_neg hnoweek]

theorem read?_append (d : Date) (t : Time) (hrest : ∀ c r, rest = c :: r → isOffsetMark c = true)
    (ho : readOffset? rest = some o) :
    read? (d.text ++ 'T' :: (t.text ++ rest)) = some ⟨d, t, o⟩ := by
  have hend := dateEnd_append d ('T' :: (t.text ++ rest))
  have hlength := d.text_length
  rw [read?, hend, List.take_left' hlength, List.drop_left' hlength, Date.readPart?_text]
  simp only [readTime?_append t hrest ho, Option.bind_eq_bind, Option.bind_some]
  rfl

theorem text_eq (m : DateTime) :
    m.text = m.date.text ++ 'T' :: (m.time.text ++ (m.offset.map Offset.text).getD []) := by
  simp [text]

theorem isFigure_offset (o : Option Offset) : ∀ c ∈ (o.map Offset.text).getD [], IsFigure c := by
  cases o with
  | none => exact List.forall_mem_nil _
  | some o => exact o.isFigure_text

theorem letter_or_isFigure (m : DateTime) : ∀ c ∈ m.text, c = 'T' ∨ IsFigure c := by
  rw [text_eq, List.forall_mem_append, List.forall_mem_cons, List.forall_mem_append]
  exact ⟨fun c hc => .inr (m.date.isFigure_text c hc), .inl rfl,
    fun c hc => .inr (m.time.isFigure_text c hc), fun c hc => .inr (isFigure_offset m.offset c hc)⟩

theorem not_isBlank_text (m : DateTime) : ∀ c ∈ m.text, isBlank c = false := by
  intro c hc
  rcases m.letter_or_isFigure c hc with rfl | hfigure
  · rfl
  · exact hfigure.not_isBlank

theorem mem_text (m : DateTime) : 'T' ∈ m.text := by
  rw [text_eq]
  exact List.mem_append_right _ List.mem_cons_self

theorem not_mem_text (m : DateTime) : 'Z' ∉ m.text := by
  intro h
  rcases m.letter_or_isFigure 'Z' h with hletter | hfigure
  · cases hletter
  · exact absurd hfigure (by decide)

theorem read?_text (m : DateTime) :
    read? m.text = some { m with offset := m.offset.map Offset.readBack } := by
  rw [text_eq]
  apply read?_append
  · intro c r hrest
    cases ho : m.offset with
    | none =>
      rw [ho] at hrest
      cases hrest
    | some o =>
      rw [ho, Option.map_some, Option.getD_some, Offset.text_eq] at hrest
      rw [← (List.cons.inj hrest).1]
      exact o.isOffsetMark_signMark
  · cases m.offset with
    | none => rfl
    | some o => exact o.readOffset?_text

theorem text_atZero {m : DateTime} (h : m.offset = none) :
    { m with offset := some Offset.zero }.text = m.text ++ "+00:00".toList := by
  have hzero : Offset.zero.text = "+00:00".toList := by decide
  simp [text_eq, h, hzero]

end DateTime
end Calendar

namespace ColumnType
open Calendar Number Text

theorem momentOf?_of_mem {s : List Char} (h : 'T' ∈ s) :
    momentOf? s = DateTime.read? (replace ['Z'] "+00:00".toList s) := by
  rw [momentOf?, if_neg]
  exact fun hdate => hdate.2.1 h

theorem momentOf?_text (m : DateTime) :
    momentOf? m.text = some { m with offset := m.offset.map Offset.readBack } := by
  rw [momentOf?_of_mem m.mem_text, replace_of_not_mem m.not_mem_text, DateTime.read?_text]

theorem momentOf?_of_readable {m : DateTime} (h : ∀ o, m.offset = some o → o.Readable) :
    momentOf? m.text = some m := by
  have hsame : m.offset.map Offset.readBack = m.offset := by
    cases ho : m.offset with
    | none => rfl
    | some o => rw [Option.map_some, Offset.readBack_of_readable (h o ho)]
  rw [momentOf?_text, hsame]

theorem momentOf?_atZero {m : DateTime} (h : m.offset = none) :
    momentOf? (m.text ++ "+00:00".toList) = some { m with offset := some Offset.zero } := by
  rw [← DateTime.text_atZero h]
  exact momentOf?_text _

theorem momentOf?_letter {m : DateTime} (h : m.offset = none) :
    momentOf? (m.text ++ ['Z']) = some { m with offset := some Offset.zero } := by
  rw [momentOf?_of_mem (List.mem_append_left _ m.mem_text), replace_append m.not_mem_text]
  have hzero := DateTime.read?_text { m with offset := some Offset.zero }
  rw [DateTime.text_atZero h] at hzero
  exact hzero

theorem not_mem_dateText (d : Date) : 'T' ∉ d.text ∧ ' ' ∉ d.text := by
  have hnot {c : Char} (hc : ¬ IsFigure c) : c ∉ d.text := fun h => hc (d.isFigure_text c h)
  exact ⟨hnot (by decide), hnot (by decide)⟩

theorem momentOf?_dateText (d : Date) : momentOf? d.text = some (.midnight d) := by
  rw [momentOf?, if_pos ⟨d.text_length, not_mem_dateText d⟩, Date.read?_text]
  rfl

theorem dateOf?_text (d : Date) : dateOf? d.text = some d := by
  rw [dateOf?, if_neg (not_or.mpr (not_mem_dateText d)), Date.read?_text]

theorem dateOf?_momentText (m : DateTime) : dateOf? m.text = some m.date := by
  rw [dateOf?, if_pos (.inl m.mem_text), momentOf?_text]
  rfl

end ColumnType
end Listing
