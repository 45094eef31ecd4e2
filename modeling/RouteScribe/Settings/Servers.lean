import RouteScribe.OpenApi.Basic
import RouteScribe.Text.Blank
import RouteScribe.Text.Split

/-!
# Servers in one line

A list of servers is written with commas between them, each as its address or as
`address|description`.  Blanks around the parts do not count, and items without an address are
passed over; a list without any server is refused.
-/

namespace RouteScribe

/-- The refusal of a list without servers. -/
def noServers : String :=
  "No valid servers provided. Expected format: " ++
    "--servers \"https://api.example.com|Production,https://staging.example.com|Staging\""

namespace Server

/-- The server of an item, if it has an address. -/
def ofItem? (item : List Char) : Option Server :=
  let (url, description) := cutAt '|' item
  match trim url with
  | [] => none
  | url =>
    let description := trim (description.getD [])
    some ⟨Text.ofChars url, if description.isEmpty then none else some (Text.ofChars description)⟩

/-- The servers of a line. -/
def ofLine (line : List Char) : List Server := (pieces ',' line).filterMap ofItem?

/-- The servers of a line, of which there has to be one. -/
def parse? (line : List Char) : Option (List Server) :=
  match ofLine line with
  | [] => none
  | servers => some servers

/-- The servers when none are given. -/
def usual : List Server := [⟨"http://localhost:3000/api", some "Development server"⟩]

end Server

end RouteScribe
