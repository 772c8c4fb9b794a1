import TemplateValues.Path.Basic
import TemplateValues.Syntax.Dialect

/-!
# Languages

The language of a file follows from the extension of its path.
-/

namespace TemplateValues

inductive Language where
  | typescript
  | tsx
  | javascript
deriving DecidableEq, Repr, Inhabited

namespace Language

def name : Language → String
  | typescript => "typescript"
  | tsx => "tsx"
  | javascript => "javascript"

def all : List Language := [typescript, tsx, javascript]

def ofName? (text : String) : Option Language := all.find? fun l => l.name = text

def unsupportedMessage (text : String) : String :=
  "unsupported language: '" ++ text ++ "'. Supported languages: " ++
    ", ".intercalate (all.map name)

def extensions : List (String × Language) :=
  [("ts", typescript), ("tsx", tsx), ("mts", typescript), ("cts", typescript),
   ("js", javascript), ("jsx", javascript), ("mjs", javascript), ("cjs", javascript)]

def ofExtension? (extension : String) : Option Language := extensions.lookup extension

def ofPath? (p : Path) : Option Language := p.extension?.bind ofExtension?

def dialect : Language → Syntax.Dialect
  | typescript => ⟨true, false⟩
  | tsx => ⟨true, true⟩
  | javascript => ⟨false, true⟩

end Language

end TemplateValues
