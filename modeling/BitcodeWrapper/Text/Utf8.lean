/-!
Text as bytes. Reading is a machine that holds at most one unfinished character: a byte that cannot
continue it ends one ill-formed piece and is read again on its own, so each maximal piece counts once.
-/
namespace BitcodeWrapper

abbrev Bytes := List UInt8

namespace Text.Utf8

def encode (s : String) : Bytes :=
  s.toList.flatMap String.utf8EncodeChar

/-- An unfinished character: its bits so far, the bytes it still needs and the range of the next. -/
structure Pending where
  value : Nat
  missing : Nat
  low : Nat
  high : Nat
  deriving Repr, DecidableEq

/-- A piece of the input is a character, or `none` where the bytes are ill formed. -/
abbrev Piece := Option Char

/-- Reads a byte that begins a piece. The ranges leave out overlong forms and surrogates. -/
def startPiece (b : UInt8) : List Piece × Option Pending :=
  let n := b.toNat
  if n < 0x80 then ([some (Char.ofNat n)], none)
  else if 0xc2 ≤ n && n ≤ 0xdf then ([], some ⟨n - 0xc0, 1, 0x80, 0xbf⟩)
  else if n == 0xe0 then ([], some ⟨0, 2, 0xa0, 0xbf⟩)
  else if n == 0xed then ([], some ⟨13, 2, 0x80, 0x9f⟩)
  else if 0xe1 ≤ n && n ≤ 0xef then ([], some ⟨n - 0xe0, 2, 0x80, 0xbf⟩)
  else if n == 0xf0 then ([], some ⟨0, 3, 0x90, 0xbf⟩)
  else if 0xf1 ≤ n && n ≤ 0xf3 then ([], some ⟨n - 0xf0, 3, 0x80, 0xbf⟩)
  else if n == 0xf4 then ([], some ⟨4, 3, 0x80, 0x8f⟩)
  else ([none], none)

def feed (b : UInt8) : Option Pending → List Piece × Option Pending
  | none => startPiece b
  | some p =>
    if p.low ≤ b.toNat && b.toNat ≤ p.high then
      let value := p.value * 64 + (b.toNat - 0x80)
      match p.missing with
      | 0 | 1 => ([some (Char.ofNat value)], none)
      | k + 1 => ([], some ⟨value, k, 0x80, 0xbf⟩)
    else
      let (pieces, next) := startPiece b
      (none :: pieces, next)

def piecesFrom : Option Pending → Bytes → List Piece
  | none, [] => []
  | some _, [] => [none]
  | pending, b :: rest =>
    let (pieces, next) := feed b pending
    pieces ++ piecesFrom next rest

def pieces (bytes : Bytes) : List Piece :=
  piecesFrom none bytes

/-- Reads bytes as text if no piece is ill formed. -/
def decode? (bytes : Bytes) : Option String :=
  ((pieces bytes).mapM id).map String.ofList

/-- Reads bytes as text with one replacement character for each ill-formed piece. -/
def decodeLossy (bytes : Bytes) : String :=
  String.ofList ((pieces bytes).map (·.getD '\ufffd'))

end Text.Utf8

end BitcodeWrapper
