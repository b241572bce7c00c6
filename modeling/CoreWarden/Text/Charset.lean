import CoreWarden.Text.Blank
import CoreWarden.Text.Utf16
import CoreWarden.Text.Utf8

/-!
The character sets a text may arrive in. A byte order mark at its beginning says more than the name
that came with the text, and is no part of it. The character sets with tables of their own are known by
how they are read.
-/
namespace CoreWarden.Text

inductive Charset where
  | utf8
  | utf16 (order : Utf16.Order)
  /-- One byte a character: the code points up to 255, with printable characters in place of the
  controls from 128 on. -/
  | latin
  | further (decode : List UInt8 → List Char)

/-- How texts are read under further names, which are given without blanks and in small letters. -/
abbrev Decoders := String → Option (List UInt8 → List Char)

namespace Charset

/-- What stands from 128 to 159. -/
def latinHigh : List Char :=
  ['€', '\x81', '‚', 'ƒ', '„', '…', '†', '‡', 'ˆ', '‰', 'Š', '‹', 'Œ', '\x8D', 'Ž', '\x8F',
   '\x90', '‘', '’', '“', '”', '•', '–', '—', '˜', '™', 'š', '›', 'œ', '\x9D', 'ž', 'Ÿ']

def latinCharacter (b : UInt8) : Char :=
  if 0x80 ≤ b then latinHigh.getD (b.toNat - 0x80) (Char.ofNat b.toNat) else Char.ofNat b.toNat

def labels : List (Charset × List String) :=
  [(utf8, ["unicode-1-1-utf-8", "unicode11utf8", "unicode20utf8", "utf-8", "utf8", "x-unicode20utf8"]),
   (utf16 .littleEndian, ["csunicode", "iso-10646-ucs-2", "ucs-2", "unicode", "unicodefeff", "utf-16",
     "utf-16le"]),
   (utf16 .bigEndian, ["unicodefffe", "utf-16be"]),
   (latin, ["ansi_x3.4-1968", "ascii", "cp1252", "cp819", "csisolatin1", "ibm819", "iso-8859-1",
     "iso-ir-100", "iso8859-1", "iso88591", "iso_8859-1", "iso_8859-1:1987", "l1", "latin1", "us-ascii",
     "windows-1252", "x-cp1252"])]

/-- The character set of a name, in any case of letters; blanks around it do not count. -/
def ofLabel? (decoders : Decoders) (label : List Char) : Option Charset :=
  let name := String.ofList ((trim label).map Char.toLower)
  match labels.find? fun entry => entry.2.contains name with
  | some (charset, _) => some charset
  | none => (decoders name).map further

/-- The character set that a byte order mark announces, and what follows the mark. -/
def ofMark? : List UInt8 → Option (Charset × List UInt8)
  | 0xEF :: 0xBB :: 0xBF :: rest => some (utf8, rest)
  | 0xFF :: 0xFE :: rest => some (utf16 .littleEndian, rest)
  | 0xFE :: 0xFF :: rest => some (utf16 .bigEndian, rest)
  | _ => none

def decodeLossy : Charset → List UInt8 → List Char
  | utf8, bytes => Utf8.decodeLossy bytes
  | utf16 order, bytes => Utf16.decodeLossy order bytes
  | latin, bytes => bytes.map latinCharacter
  | further decode, bytes => decode bytes

def text (said : Charset) (bytes : List UInt8) : List Char :=
  match ofMark? bytes with
  | some (marked, rest) => marked.decodeLossy rest
  | none => said.decodeLossy bytes

end Charset

end CoreWarden.Text
