/-! Characters and their UTF-8 octets.
`encode` writes a character, `decode` reads a stream that mixes octets with characters that are
already known. Octets that form no character are read as U+FFFD, one for each longest run that
could have begun one; a known character ends the run before it. -/
namespace Listing.Text.Utf8

def encode (c : Char) : List UInt8 :=
  let n := c.toNat
  if n < 0x80 then [UInt8.ofNat n]
  else if n < 0x800 then [UInt8.ofNat (0xC0 + n / 0x40), UInt8.ofNat (0x80 + n % 0x40)]
  else if n < 0x10000 then
    [UInt8.ofNat (0xE0 + n / 0x1000), UInt8.ofNat (0x80 + n / 0x40 % 0x40),
      UInt8.ofNat (0x80 + n % 0x40)]
  else
    [UInt8.ofNat (0xF0 + n / 0x40000), UInt8.ofNat (0x80 + n / 0x1000 % 0x40),
      UInt8.ofNat (0x80 + n / 0x40 % 0x40), UInt8.ofNat (0x80 + n % 0x40)]

theorem encode_of_ascii {c : Char} (h : c.toNat < 0x80) : encode c = [UInt8.ofNat c.toNat] := by
  simp [encode, h]

def encodeAll (s : List Char) : List UInt8 := s.flatMap encode

inductive Piece
  | octet (b : UInt8)
  | known (c : Char)
  deriving DecidableEq, Repr

/-- A character under way: its bits so far, how many octets it still needs, and the range that the
next one has to lie in. -/
structure Partial where
  bits : Nat
  owed : Nat
  low : Nat
  high : Nat
  deriving DecidableEq, Repr

inductive Lead
  | char (c : Char)
  | start (p : Partial)
  | invalid
  deriving DecidableEq, Repr

def Lead.ofOctet (b : UInt8) : Lead :=
  let n := b.toNat
  if n < 0x80 then .char (Char.ofNat n)
  else if n < 0xC2 then .invalid
  else if n < 0xE0 then .start ⟨n - 0xC0, 1, 0x80, 0xBF⟩
  else if n = 0xE0 then .start ⟨0, 2, 0xA0, 0xBF⟩
  else if n = 0xED then .start ⟨0xD, 2, 0x80, 0x9F⟩
  else if n < 0xF0 then .start ⟨n - 0xE0, 2, 0x80, 0xBF⟩
  else if n = 0xF0 then .start ⟨0, 3, 0x90, 0xBF⟩
  else if n < 0xF4 then .start ⟨n - 0xF0, 3, 0x80, 0xBF⟩
  else if n = 0xF4 then .start ⟨4, 3, 0x80, 0x8F⟩
  else .invalid

def replacement : Char := Char.ofNat 0xFFFD

def Partial.accepts (p : Partial) (b : UInt8) : Bool := p.low ≤ b.toNat && b.toNat ≤ p.high

def Partial.push (p : Partial) (b : UInt8) : Partial :=
  ⟨p.bits * 0x40 + (b.toNat - 0x80), p.owed - 1, 0x80, 0xBF⟩

def decodeFrom : Option Partial → List Piece → List Char
  | none, [] => []
  | some _, [] => [replacement]
  | none, .known c :: r => c :: decodeFrom none r
  | some _, .known c :: r => replacement :: c :: decodeFrom none r
  | none, .octet b :: r =>
    match Lead.ofOctet b with
    | .char c => c :: decodeFrom none r
    | .start p => decodeFrom (some p) r
    | .invalid => replacement :: decodeFrom none r
  | some p, .octet b :: r =>
    if p.accepts b then
      if (p.push b).owed = 0 then Char.ofNat (p.push b).bits :: decodeFrom none r
      else decodeFrom (some (p.push b)) r
    else replacement ::
      match Lead.ofOctet b with
      | .char c => c :: decodeFrom none r
      | .start q => decodeFrom (some q) r
      | .invalid => replacement :: decodeFrom none r

def decode (s : List Piece) : List Char := decodeFrom none s

theorem decode_ascii {c : Char} (h : c.toNat < 0x80) (r : List Piece) :
    decode (.octet (UInt8.ofNat c.toNat) :: r) = c :: decode r := by
  have hn : (UInt8.ofNat c.toNat).toNat = c.toNat := by
    rw [UInt8.toNat_ofNat']; omega
  simp only [decode, decodeFrom, Lead.ofOctet, hn, h, if_true, Char.ofNat_toNat]

example : decode [.octet 0xE4, .octet 0xB8, .octet 0xAD] = [Char.ofNat 0x4E2D] := by decide
example : decode [.octet 0xE4, .octet 0xB8, .octet 0x41] = [replacement, 'A'] := by decide
example : decode [.octet 0xED, .octet 0xA0, .octet 0x80] =
    [replacement, replacement, replacement] := by decide

end Listing.Text.Utf8
