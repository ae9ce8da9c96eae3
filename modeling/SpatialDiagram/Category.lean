import SpatialDiagram.Text.Blank
import SpatialDiagram.Text.Folding

/-!
# Categories of nodes and connections

The category of a node follows from the label of its declaration, in any case
and with short forms; an unknown label means a component. The category of a
connection follows from its arrow; two categories have no arrow and occur in
graphs that were assembled or loaded.
-/

namespace SpatialDiagram

/-- What a node stands for. -/
inductive NodeCategory where
  | function
  | component
  | datapath
  | module
  | classType
  | interface
  | variable
  | constant
deriving DecidableEq, Repr

namespace NodeCategory

/-- The categories in the order in which they are defined. -/
def all : List NodeCategory :=
  [function, component, datapath, module, classType, interface, .variable, constant]

/-- The name under which a category is stored. -/
def name : NodeCategory → String
  | function => "function"
  | component => "component"
  | datapath => "datapath"
  | module => "module"
  | classType => "class"
  | interface => "interface"
  | .variable => "variable"
  | constant => "constant"

/-- The category that is stored under a name. -/
def ofName? (s : String) : Option NodeCategory := all.find? fun k => k.name = s

/-- Every category of nodes is found by its own name. -/
theorem ofName_name (k : NodeCategory) : ofName? k.name = some k := by cases k <;> decide

/-- The short forms of some names. -/
def shortNames : List (String × NodeCategory) :=
  [("func", function), ("comp", component), ("data", datapath), ("mod", module),
   ("iface", interface), ("var", .variable), ("const", constant)]

/-- The category that a label names, in any case and between blanks. -/
def ofLabel? (label : String) : Option NodeCategory :=
  let word := String.ofList (Text.lower (Text.trim label.toList))
  ofName? word <|> shortNames.lookup word

/-- A label that names no category means a component. -/
def ofLabel (label : String) : NodeCategory := (ofLabel? label).getD component

/-- The colour of a node that declares none and for which none is configured. -/
def color : NodeCategory → String
  | function => "#4CAF50"
  | component => "#2196F3"
  | datapath => "#FF9800"
  | module => "#9C27B0"
  | classType => "#F44336"
  | interface => "#00BCD4"
  | .variable => "#FFEB3B"
  | constant => "#795548"

end NodeCategory

/-- What a connection stands for. -/
inductive ConnectionCategory where
  | dataFlow
  | controlFlow
  | association
  | inheritance
  | composition
  | dependency
deriving DecidableEq, Repr

namespace ConnectionCategory

/-- The categories in the order in which they are defined. -/
def all : List ConnectionCategory :=
  [dataFlow, controlFlow, association, inheritance, composition, dependency]

/-- The name under which a category is stored. -/
def name : ConnectionCategory → String
  | dataFlow => "dataflow"
  | controlFlow => "controlflow"
  | association => "association"
  | inheritance => "inheritance"
  | composition => "composition"
  | dependency => "dependency"

/-- The category that is stored under a name. -/
def ofName? (s : String) : Option ConnectionCategory := all.find? fun k => k.name = s

/-- Every category of connections is found by its own name. -/
theorem ofName_name (k : ConnectionCategory) : ofName? k.name = some k := by cases k <;> decide

/-- The arrows of the notation. No arrow begins another one. -/
def arrows : List (String × ConnectionCategory) :=
  [("-->", dataFlow), ("-.->", controlFlow), ("---", association), ("==", inheritance)]

/-- The category that an arrow is drawn for; any other arrow is an association. -/
def ofArrow (arrow : String) : ConnectionCategory := (arrows.lookup arrow).getD association

/-- The colour in which connections of a category are drawn. -/
def color : ConnectionCategory → String
  | dataFlow => "#4CAF50"
  | controlFlow => "#F44336"
  | inheritance => "#2196F3"
  | composition => "#FF9800"
  | dependency => "#9C27B0"
  | association => "#607D8B"

end ConnectionCategory

/-- The colour of what has no category of its own. -/
def neutralGray : String := "#808080"

end SpatialDiagram
