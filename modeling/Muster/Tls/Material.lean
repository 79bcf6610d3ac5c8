import Muster.Files
import Muster.Text.Quoted
import Muster.Tls.Pem

/-!
# Certificates and keys

What a relay and its clients load from the files that they are configured with.
-/

namespace Muster.Tls

open Text

/-- Why a file holds nothing useful. -/
inductive MaterialError
  | missing
  | unreadable
  | empty
  deriving DecidableEq, Repr

/-- The sections of a file, if there is one.  A directory can be opened but not
read. -/
def readFile (files : Files) (path : String) : Except MaterialError Reading :=
  match files path with
  | .unreachable _ => .error .missing
  | .directory => .error .unreadable
  | .contents bytes => .ok (read bytes)

/-- The certificates of a file, of which there is at least one. -/
def loadCertificates (files : Files) (path : String) :
    Except MaterialError (List (List UInt8)) := do
  match (← readFile files path).certificates with
  | .error _ => throw .unreadable
  | .ok [] => throw .empty
  | .ok certificates => return certificates

def loadPrivateKey (files : Files) (path : String) : Except MaterialError Item := do
  match (← readFile files path).privateKey with
  | .error _ => throw .unreadable
  | .ok none => throw .empty
  | .ok (some key) => return key

end Muster.Tls
