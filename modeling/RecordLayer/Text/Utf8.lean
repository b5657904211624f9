/-!
# Text — UTF-8

Bytes read as UTF-8.  Where the bytes are no character, the longest head of one that could have
become a character counts as a single gap.
-/

namespace RecordLayer.Text

/-- The byte continues a character. -/
def isContinuation (b : UInt8) : Bool :=
  0x80 ≤ b && b ≤ 0xbf

/-- The bytes that may stand second in a character, by its first byte. -/
def isSecond (first second : UInt8) : Bool :=
  if first == 0xe0 then 0xa0 ≤ second && second ≤ 0xbf
  else if first == 0xed then 0x80 ≤ second && second ≤ 0x9f
  else if first == 0xf0 then 0x90 ≤ second && second ≤ 0xbf
  else if first == 0xf4 then 0x80 ≤ second && second ≤ 0x8f
  else isContinuation second

/-- The character of a first byte's `bits` and the six bits of each further byte. -/
def assembled (bits : Nat) (further : List UInt8) : Char :=
  .ofNat (further.foldl (fun n b => n * 64 + b.toNat % 64) bits)

/-- The characters of a sequence of bytes, with nothing for a gap. -/
def decodeUtf8 : List UInt8 → List (Option Char)
  | [] => []
  | a :: rest =>
    if a < 0x80 then some (.ofNat a.toNat) :: decodeUtf8 rest
    else if a < 0xc2 || 0xf4 < a then none :: decodeUtf8 rest
    else match rest with
      | [] => [none]
      | b :: rest =>
        if !isSecond a b then none :: decodeUtf8 (b :: rest)
        else if a < 0xe0 then some (assembled (a.toNat % 32) [b]) :: decodeUtf8 rest
        else match rest with
          | [] => [none]
          | c :: rest =>
            if !isContinuation c then none :: decodeUtf8 (c :: rest)
            else if a < 0xf0 then some (assembled (a.toNat % 16) [b, c]) :: decodeUtf8 rest
            else match rest with
              | [] => [none]
              | d :: rest =>
                if !isContinuation d then none :: decodeUtf8 (d :: rest)
                else some (assembled (a.toNat % 8) [b, c, d]) :: decodeUtf8 rest

/-- The text of bytes, with U+FFFD for every gap. -/
def lossyUtf8 (bytes : List UInt8) : String :=
  .ofList ((decodeUtf8 bytes).map (·.getD '\ufffd'))

/-- The text of bytes, if they have no gap. -/
def utf8? (bytes : List UInt8) : Option String :=
  ((decodeUtf8 bytes).mapM id).map .ofList

end RecordLayer.Text
