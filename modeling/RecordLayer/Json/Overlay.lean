import RecordLayer.Json

/-!
# JSON — Overlay

One document laid over another: objects are joined entry by entry, and of anything else only the
upper document is seen.
-/

namespace RecordLayer.Json

/-- Puts an entry in the place of the one of its name, or at the end. -/
def putEntry (name : String) (doc : Json) : List (String × Json) → List (String × Json)
  | [] => [(name, doc)]
  | entry :: rest =>
    if entry.1 = name then (name, doc) :: rest else entry :: putEntry name doc rest

mutual

/-- The second document over the first. -/
def overlay : Json → Json → Json
  | object lower, object upper => object (overlayEntries lower upper)
  | _,            upper        => upper

def overlayEntries (lower : List (String × Json)) : List (String × Json) → List (String × Json)
  | [] => lower
  | (name, doc) :: rest =>
    let seen := match lower.lookup name with
      | some below => overlay below doc
      | none       => doc
    overlayEntries (putEntry name seen lower) rest

end

end RecordLayer.Json
