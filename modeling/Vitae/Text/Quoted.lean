import Vitae.Text.Digit
import Vitae.Text.Extending
import Vitae.Text.Printable

namespace Vitae.Text

def codePointEscape (c : Char) : List Char :=
  '\\' :: 'u' :: '\x7b' :: (hexDigits c.toNat ++ ['\x7d'])

def quotedChar (c : Char) : List Char :=
  match c with
  | '\x00' => ['\\', '0']
  | '\t' => ['\\', 't']
  | '\r' => ['\\', 'r']
  | '\n' => ['\\', 'n']
  | '\\' => ['\\', '\\']
  | '"' => ['\\', '"']
  | c => if isExtending c || !isPrintable c then codePointEscape c else [c]

def quoted (s : List Char) : List Char :=
  '"' :: (s.flatMap quotedChar ++ ['"'])

end Vitae.Text
