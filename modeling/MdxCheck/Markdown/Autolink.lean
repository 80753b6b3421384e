import MdxCheck.Url.Address

/-!
Addresses that stand for themselves between angle brackets.
-/

namespace MdxCheck.Markdown.Autolink

def dropLastFeed (text : Text) : Text :=
  if text.getLast? = some '\n' then text.dropLast else text

def isSchemeChar (c : Char) : Bool :=
  c.isAlphanum || c == '+' || c == '.' || c == '-'

/-- Whether the text is an absolute address: a scheme of two to 32 characters, a colon, and neither
angle brackets nor blanks. -/
def isAbsolute (text : Text) : Bool :=
  let scheme := text.takeWhile isSchemeChar
  match text.drop scheme.length with
  | ':' :: rest =>
    (scheme.head?.map Char.isAlpha).getD false && 2 ≤ scheme.length && scheme.length ≤ 32 &&
      (dropLastFeed rest).all fun c => !(c == '<' || c == '>' || c.toNat ≤ 32)
  | _ => false

def isMailboxChar (c : Char) : Bool :=
  c.isAlphanum || ".!#$%&'*+/=?^_`\x7b|\x7d~-".toList.contains c

/-- Whether the text is a label of a domain: letters, digits and inner hyphens, at most 63. -/
def isDomainLabel (label : Text) : Bool :=
  label.length ≤ 63 && (label.head?.map Char.isAlphanum).getD false &&
    (label.getLast?.map Char.isAlphanum).getD false &&
    label.all fun c => c.isAlphanum || c == '-'

def isMail (text : Text) : Bool :=
  match Text.cut? '@' text with
  | some (mailbox, domain) =>
    !mailbox.isEmpty && mailbox.all isMailboxChar &&
      (Text.splitOn (· == '.') (dropLastFeed domain)).all isDomainLabel
  | none => false

/-- The text up to the bracket that closes it; no other bracket may open before. -/
def inside? : Text → Option Text
  | [] => none
  | c :: rest =>
    if c = '<' then none else if c = '>' then some [] else (inside? rest).map (c :: ·)

def address? : Text → Option Text
  | '<' :: text =>
    (inside? text).filter fun address =>
      (isAbsolute address && Address.isAllowed address) || (!isAbsolute address && isMail address)
  | _ => none

end MdxCheck.Markdown.Autolink
