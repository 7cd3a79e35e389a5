import Reckoner.Text.Similarity

set_option autoImplicit false

namespace Reckoner.Suggestion

/-- A limit on the number of suggestions that leaves room for none. -/
structure BadLimit where
  limit : Int
deriving DecidableEq

/-- The known names closest to the one written, at most `limit` of them, best first. Without a
written name or without known ones there are none, whatever the limit. -/
def closest (target : String) (names : List String) (limit : Int) : Except BadLimit (List String) :=
  if target.isEmpty || names.isEmpty then
    .ok []
  else if limit ≤ 0 then
    .error ⟨limit⟩
  else
    .ok ((Text.closeNames target names).take limit.toNat)

/-- The number of names that a question offers. -/
def offered : Nat := 3

/-- A question that offers the closest names, if any is close. -/
def question? (target : String) (names : List String) : Option String :=
  match closest target names offered with
  | .ok (first :: more) =>
    let quoted := (first :: more).map fun name => "'" ++ name ++ "'"
    some ("Did you mean " ++ ", ".intercalate quoted ++ "?")
  | _ => none

def BadLimit.message (refused : BadLimit) : String :=
  "n must be > 0: " ++ refused.limit.repr

end Reckoner.Suggestion
