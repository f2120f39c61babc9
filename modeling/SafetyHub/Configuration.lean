import SafetyHub.Catalog.Basic
import SafetyHub.Policy
import SafetyHub.Toml.Reader

/-!
# Configurations

A configuration is a catalog of sources and the policy of a hub.  Its document is a settings
document with a table of flags and an array of groups, both of which may be missing;
`Configuration.parse` reads one and checks its groups.
-/

namespace SafetyHub

/-- What a configuration document states. -/
structure ConfigurationDocument where
  policy : Policy := {}
  groups : List SourceGroup := []

namespace ConfigurationDocument

instance : Inhabited ConfigurationDocument := ⟨{}⟩

instance : Encode ConfigurationDocument :=
  ⟨fun doc => .record [("flags", encode doc.policy), ("groups", encode doc.groups)]⟩

instance : Decode ConfigurationDocument where
  decode? d v := do
    let r ← v.record? d ["flags", "groups"]
    some {
      policy := ← r.defaulted "flags" {} (decode? d)
      groups := ← r.defaulted "groups" [] (decode? d) }

/-- The document of a settings text. -/
def parse? (text : String) : Option ConfigurationDocument :=
  (Toml.parse? text).bind (decode? .toml)

end ConfigurationDocument

/-- Why there is no configuration. -/
inductive ConfigurationError where
  /-- The document is missing or is no text. -/
  | unreadable
  /-- The document is not of the form that is known. -/
  | malformed
  /-- Its groups are no catalog. -/
  | inconsistent (error : CatalogError)
deriving DecidableEq, Repr

/-- The wording of an error. -/
def ConfigurationError.message : ConfigurationError → String
  | .unreadable => "config document cannot be read"
  | .malformed => "invalid config document"
  | .inconsistent error => error.message

/-- A catalog of sources and the policy of a hub. -/
structure Configuration where
  catalog : Catalog := .empty
  policy : Policy := {}

namespace Configuration

instance : Inhabited Configuration := ⟨{}⟩

/-- The configuration that a document states. -/
def ofDocument (doc : ConfigurationDocument) : Except ConfigurationError Configuration :=
  match Catalog.ofGroups doc.groups with
  | .ok catalog => .ok { catalog, policy := doc.policy }
  | .error e => .error (.inconsistent e)

/-- The configuration of a settings text. -/
def parse (text : String) : Except ConfigurationError Configuration :=
  match ConfigurationDocument.parse? text with
  | some doc => ofDocument doc
  | none => .error .malformed

/-- The configuration of a file's content, if there is a file. -/
def ofContent : Option ByteArray → Except ConfigurationError Configuration
  | none => .error .unreadable
  | some bytes =>
    match String.fromUTF8? bytes with
    | some text => parse text
    | none => .error .unreadable

end Configuration

end SafetyHub
