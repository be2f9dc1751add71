/-!
# Caching

Who may keep the answer to a request, and for how long.

## Main definitions

* `CachePolicy`: Everyone, the caller alone, or nobody.
* `CachePolicy.ofQuery`: The policy of a query.
* `CachePolicy.header`: The policy as the value of a response header.
-/

namespace ViewCompiler

/-- Who may keep the answer to a request. -/
inductive CachePolicy where
  | everyone
  | caller
  | nobody
deriving DecidableEq

namespace CachePolicy

/-- The seconds for which an answer may be kept. -/
def maxAge : Nat := 600

/-- The policy of a query: an answer from public views alone is for
    everyone. -/
def ofQuery (authRequired : Bool) : CachePolicy :=
  if authRequired then .caller else .everyone

/-- The policy as the value of a response header. -/
def header : CachePolicy → String
  | .everyone => s!"public, max-age={maxAge}"
  | .caller => s!"private, max-age={maxAge}"
  | .nobody => "no-store"

end CachePolicy

end ViewCompiler
