import Muster.Text.Base64
import Muster.Text.Utf8

/-!
# Certificates and keys in text files

A section starts with a line `-----BEGIN label-----`, ends with the line
`-----END label-----`, and has base64 in between.  Text outside of sections is
passed over, and so are sections whose label means nothing here.  A line ends at
a line feed or a carriage return.
-/

namespace Muster.Tls

open Text

/-- What a section holds. -/
inductive Kind
  | certificate
  | publicKey
  | pkcs1
  | pkcs8
  | sec1
  | revocationList
  | request
  | ech
  deriving DecidableEq, Repr

namespace Kind

def ofLabel? (label : List UInt8) : Option Kind :=
  if label = utf8 "CERTIFICATE" then some certificate
  else if label = utf8 "PUBLIC KEY" then some publicKey
  else if label = utf8 "RSA PRIVATE KEY" then some pkcs1
  else if label = utf8 "PRIVATE KEY" then some pkcs8
  else if label = utf8 "EC PRIVATE KEY" then some sec1
  else if label = utf8 "X509 CRL" then some revocationList
  else if label = utf8 "CERTIFICATE REQUEST" then some request
  else if label = utf8 "ECHCONFIG" then some ech
  else none

/-- Whether a section of this kind holds a private key. -/
def isPrivateKey : Kind → Bool
  | pkcs1 | pkcs8 | sec1 => true
  | _ => false

end Kind

/-- A section that means something. -/
structure Item where
  kind : Kind
  content : List UInt8
  deriving DecidableEq, Repr

/-- Why a file is no row of sections. -/
inductive PemError
  /-- a line that starts like the start of a section goes on differently -/
  | badStart
  /-- the file ends inside a section -/
  | noEnd
  /-- a section that is not base64 -/
  | badContent
  deriving DecidableEq, Repr

/-- The sections of a file up to the first error. -/
structure Reading where
  items : List Item
  error : Option PemError
  deriving DecidableEq, Repr

def endsLine (byte : UInt8) : Bool :=
  byte = 10 ∨ byte = 13

/-- The lines of a file with the bytes that end them. -/
def lines : List UInt8 → List (List UInt8)
  | [] => []
  | byte :: rest =>
    if endsLine byte then [byte] :: lines rest
    else match lines rest with
      | [] => [[byte]]
      | line :: others => (byte :: line) :: others

def startMark : List UInt8 := utf8 "-----BEGIN "

/-- Splits the end off a line that starts a section: the dashes and the blanks
among and behind them, backwards. -/
def trailer : List UInt8 → Nat × List UInt8
  | [] => (0, [])
  | byte :: rest =>
    if byte = 45 then
      let (dashes, label) := trailer rest
      (dashes + 1, label)
    else if endsLine byte ∨ byte = 32 then
      let (dashes, label) := trailer rest
      (dashes, if dashes = 0 then byte :: rest else label)
    else (0, byte :: rest)

def label? (line : List UInt8) : Option (List UInt8) :=
  let (dashes, rest) := trailer line.reverse
  if dashes = 5 then some (rest.reverse.drop startMark.length) else none

/-- The line that ends a section, as far as it matters. -/
def endMark (label : List UInt8) : List UInt8 :=
  utf8 "-----END " ++ (label ++ utf8 "-----")

/-- The sections in some lines, where a section may be open and have collected
some base64. -/
def readLines : List (List UInt8) → Option (List UInt8) → List UInt8 → Reading
  | [], none, _ => ⟨[], none⟩
  | [], some _, _ => ⟨[], some .noEnd⟩
  | line :: lines, section?, body =>
    if startMark.isPrefixOf line then
      match label? line with
      | none => ⟨[], some .badStart⟩
      | some label => readLines lines (some label) body
    else match section? with
      | none => readLines lines none body
      | some label =>
        if (endMark label).isPrefixOf line then
          match Kind.ofLabel? label with
          | none => readLines lines none []
          | some kind =>
            match ofBase64? body with
            | none => ⟨[], some .badContent⟩
            | some content =>
              let others := readLines lines none []
              { others with items := ⟨kind, content⟩ :: others.items }
        else readLines lines section? (body ++ line)

def read (file : List UInt8) : Reading :=
  readLines (lines file) none []

namespace Reading

/-- The certificates of a file in which nothing is wrong. -/
def certificates (reading : Reading) : Except PemError (List (List UInt8)) :=
  match reading.error with
  | some error => .error error
  | none => .ok ((reading.items.filter (·.kind = .certificate)).map Item.content)

/-- The first private key of a file in which nothing is wrong before it. -/
def privateKey (reading : Reading) : Except PemError (Option Item) :=
  match reading.items.find? (·.kind.isPrivateKey), reading.error with
  | some item, _ => .ok (some item)
  | none, some error => .error error
  | none, none => .ok none

end Reading

end Muster.Tls
