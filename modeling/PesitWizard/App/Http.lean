import PesitWizard.App.Store

/-! What the interfaces of the programs share: their errors, and the texts that they look at. -/

namespace PesitWizard.App

inductive StatusCode
  | badRequest | notFound | conflict | internalServerError
  deriving DecidableEq

structure ApiError where
  status : StatusCode
  message : String

namespace ApiError

def notFound (what : String) : ApiError := ⟨.notFound, what⟩

def badRequest (msg : String) : ApiError := ⟨.badRequest, msg⟩

def conflict (msg : String) : ApiError := ⟨.conflict, msg⟩

def internal (msg : String) : ApiError := ⟨.internalServerError, msg⟩

end ApiError

def isWhitespace (c : Char) : Bool :=
  let n := c.toNat
  (9 ≤ n && n ≤ 13) || n == 0x20 || n == 0x85 || n == 0xA0 || n == 0x1680 ||
    (0x2000 ≤ n && n ≤ 0x200A) || n == 0x2028 || n == 0x2029 || n == 0x202F || n == 0x205F || n == 0x3000

def trim (s : String) : String :=
  String.ofList (((s.toList.dropWhile isWhitespace).reverse.dropWhile isWhitespace).reverse)

def isBlank (s : String) : Bool := s.toList.all isWhitespace

def wordCount (s : String) : ℕ := (s.toList.splitBy fun a b => isWhitespace a == isWhitespace b).countP
  fun word => word.any fun c => !isWhitespace c

def nonBlank (s : Option String) : Option String := s.filter fun t => !isBlank t

/-- Every occurrence of a text replaced, from left to right; `skip` characters of one are still
to be passed over. -/
def replaceFrom (text value : List Char) : ℕ → List Char → List Char
  | _, [] => []
  | skip + 1, _ :: cs => replaceFrom text value skip cs
  | 0, c :: cs =>
    if text.isPrefixOf (c :: cs) then value ++ replaceFrom text value (text.length - 1) cs
    else c :: replaceFrom text value 0 cs

def replace (s text value : String) : String :=
  String.ofList (replaceFrom text.toList value.toList 0 s.toList)

def resolvePlaceholders (pattern : String) (values : List (String × String)) : String :=
  values.foldl (fun out v => replace out ("$\x7b" ++ v.1 ++ "\x7d") v.2) pattern

section Requests

variable {T : Type} [Document T]

def fetch (s : JsonStore) (table key : String) : Except ApiError (Option T) :=
  match s.get table key with
  | some doc => .ok doc
  | none => .error (.internal "json")

def fetchAll (s : JsonStore) (table : String) : Except ApiError (List T) :=
  match s.listAs table with
  | some docs => .ok docs
  | none => .error (.internal "json")

end Requests

end PesitWizard.App
