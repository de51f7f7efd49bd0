import PropAtlas.Text.CodePoint
import PropAtlas.Table

/-!
What a source says about components: where they are declared, where elements use them, and which
props are named in either place.
-/

namespace PropAtlas

-- Everything that a parameter pattern does not name, and an object spread into an element, have names
-- that no prop has.
def restProp : String := "...rest"

def spreadProp : String := "...spread"

/-- One occurrence of a prop: a field of a component's parameter, or an attribute of an element. -/
structure PropUsage where
  name : String
  component : String
  file : String
  line : Int
  column : Int
  value : Option Text := none
  spread : Bool := false
  type : Option String := none
  deriving DecidableEq, Repr

structure Declaration where
  component : String
  file : String
  line : Int
  column : Int
  props : List PropUsage := []
  interface : Option String := none
  deriving DecidableEq, Repr

/-- An element that uses a component, with all its attributes. `component` is its full name, which may
be dotted, and `localName` the last part of it. -/
structure Site where
  component : String
  localName : String
  file : String
  line : Int
  column : Int
  props : List PropUsage := []
  deriving DecidableEq, Repr

namespace Site

def hasSpread (s : Site) : Bool := s.props.any (·.spread)

-- Full or local names refer to a site.
def isNamed (s : Site) (name : Text) : Bool :=
  name == Text.ofString s.component || name == Text.ofString s.localName

end Site

/-- A type whose name says that it describes the props of a component, with the types of its
properties. -/
structure PropsInterface where
  name : String
  component : String
  types : Table String String := []
  deriving DecidableEq, Repr

structure FileAnalysis where
  file : String
  declarations : List Declaration := []
  usages : List PropUsage := []
  sites : List Site := []
  interfaces : Table String PropsInterface := []
  deriving DecidableEq, Repr

end PropAtlas
