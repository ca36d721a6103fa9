import GatewayDocs.Text.Units
import GatewayDocs.Decimal.Digits

/-! # Characters as bytes

The bytes of characters are their UTF-8 (`encode`, and `decode?` back).  A text has the bytes of
the characters that it holds (`encode?`, and `ofBytes?` back); one with a unit that stands alone
has none.  Bytes that are no UTF-8 are no characters, and `Utf8.fault?` tells where and why: a
byte that starts no character, a character that is broken off by another one, or one that the
end of the bytes breaks off. -/

namespace GatewayDocs.Text

/-- The characters that bytes encode, if they are UTF-8. -/
def decode? (bytes : ByteArray) : Option String := String.fromUTF8? bytes

/-- The bytes that encode characters. -/
def encode (s : String) : ByteArray := s.toUTF8

/-- The text that bytes encode, if they are UTF-8. -/
def ofBytes? (bytes : ByteArray) : Option String :=
  (decode? bytes).map fun s => Units.ofChars s.toList

/-- The bytes that encode a text, if it has any. -/
def encode? (s : String) : Option ByteArray :=
  if Units.hasAlone s then none
  else some (encode (String.ofList ((Units.codes s.toList).map Char.ofNat)))

/-- The number of bytes of a code point; a unit that stands alone stands for one byte. -/
def codeSize (n : Nat) : Nat := if Units.isUnit n then 1 else (Char.ofNat n).utf8Size

/-- The number of bytes of the code points that some characters hold. -/
def byteSize (cs : List Char) : Nat := (Units.codes cs).foldl (fun n code => n + codeSize code) 0

namespace Utf8

/-- Why bytes are no text. -/
inductive Reason where
  | start
  | continuation
  | ending

/-- Where and why bytes are no text: how many bytes come before the fault, and which bytes
are at fault. -/
structure Fault where
  position : Nat
  bytes : List UInt8
  reason : Reason

/-- The number of bytes of the character that a byte starts, if it starts one. -/
def width? (b : UInt8) : Option Nat :=
  if b < 0x80 then some 1
  else if b < 0xc2 then none
  else if b < 0xe0 then some 2
  else if b < 0xf0 then some 3
  else if b < 0xf5 then some 4
  else none

/-- Whether a byte may come second after a first one. -/
def isSecond (first b : UInt8) : Bool :=
  let least : UInt8 := if first = 0xe0 then 0xa0 else if first = 0xf0 then 0x90 else 0x80
  let most : UInt8 := if first = 0xed then 0x9f else if first = 0xf4 then 0x8f else 0xbf
  least ≤ b && b ≤ most

/-- Whether a byte may come third or fourth. -/
def isLater (b : UInt8) : Bool := 0x80 ≤ b && b ≤ 0xbf

/-- How many of the bytes after the first one go on with its character, at most so many. -/
def going (first : UInt8) (limit : Nat) : List UInt8 → Nat
  | [] => 0
  | b :: rest =>
    if limit = 0 || !isSecond first b then 0
    else 1 + ((rest.take (limit - 1)).takeWhile isLater).length

/-- The first fault of some bytes that come after others. -/
def faultFrom? (position : Nat) : Nat → List UInt8 → Option Fault
  | 0, _ => none
  | _ + 1, [] => none
  | n + 1, b :: rest =>
    match width? b with
    | none => some ⟨position, [b], .start⟩
    | some width =>
      let more := going b (width - 1) rest
      if more = width - 1 then faultFrom? (position + width) n (rest.drop more)
      else
        some ⟨position, b :: rest.take more,
          if more = rest.length then .ending else .continuation⟩

/-- The first fault of bytes that are no text. -/
def fault? (bytes : List UInt8) : Option Fault := faultFrom? 0 (bytes.length + 1) bytes

/-- The wording of a reason. -/
def Reason.text : Reason → String
  | start => "invalid start byte"
  | continuation => "invalid continuation byte"
  | ending => "unexpected end of data"

/-- The wording of a fault. -/
def Fault.text (f : Fault) : String :=
  let place (n : Nat) : String := Decimal.intText n
  let what :=
    match f.bytes with
    | [b] =>
      "byte 0x" ++ String.ofList (Decimal.hexDigits 2 b.toNat) ++ " in position " ++
        place f.position
    | bs => "bytes in position " ++ place f.position ++ "-" ++ place (f.position + bs.length - 1)
  "'utf-8' codec can't decode " ++ what ++ ": " ++ f.reason.text

end Utf8
end GatewayDocs.Text
