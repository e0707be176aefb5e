import Runbook.Text.Digit
import Runbook.Text.Printable
import Runbook.Text.Surrogate

/-!
# Quoted texts

The written form of a text or of octets between quotes, with escapes for what cannot be shown.
Single quotes are taken unless the text holds one and no double quote.
-/

namespace Runbook.Text

/-- The quote that a text is written between. -/
def quoteFor (cs : List Char) : Char :=
  if cs.contains '\x27' && !cs.contains '"' then '"' else '\x27'

/-- One character as it stands between the given quotes. -/
def quotedChar (quote c : Char) : List Char :=
  if c == quote || c == '\\' then ['\\', c]
  else if c == '\n' then ['\\', 'n']
  else if c == '\r' then ['\\', 'r']
  else if c == '\t' then ['\\', 't']
  else if isPrintable c then [c]
  else if let some half := half? c then ['\\', 'u'] ++ hexDigits 4 half
  else if c.toNat < 0x100 then ['\\', 'x'] ++ hexDigits 2 c.toNat
  else if c.toNat < 0x10000 then ['\\', 'u'] ++ hexDigits 4 c.toNat
  else ['\\', 'U'] ++ hexDigits 8 c.toNat

/-- A text between quotes. -/
def quoted (s : String) : String :=
  let cs := s.toList
  let quote := quoteFor cs
  String.ofList ([quote] ++ cs.flatMap (quotedChar quote) ++ [quote])

/-- One octet as it stands between the given quotes. -/
def quotedOctet (quote : Char) (b : UInt8) : List Char :=
  let c := Char.ofNat b.toNat
  if b.toNat < 0x80 then quotedChar quote c else ['\\', 'x'] ++ hexDigits 2 b.toNat

/-- Octets between quotes, marked by a leading `b`. -/
def quotedOctets (bs : List UInt8) : String :=
  let quote := quoteFor (bs.map fun b => Char.ofNat b.toNat)
  String.ofList (['b', quote] ++ bs.flatMap (quotedOctet quote) ++ [quote])

end Runbook.Text
