import QueryPipeline.DataType

/-!
# Entity models

A model says in which table and columns the entities of a pipeline are stored. A table or column that
is not named has the name of the entity or property.
-/

set_option autoImplicit false

namespace QueryPipeline

/-- A property of an entity, stored in one column. -/
structure Property where
  name : String
  column : Option String
  type : DataType
  /-- The type of the column in the database, when it is not the usual one. -/
  storeType : Option String
deriving DecidableEq, Repr, Inhabited

/-- An entity, stored in one table. -/
structure EntityType where
  name : String
  table : Option String
  schema : Option String
  properties : List Property
deriving DecidableEq, Repr, Inhabited

/-- The entities that pipelines may start from. -/
structure Model where
  entities : List EntityType
deriving DecidableEq, Repr, Inhabited

namespace Property

/-- A property stored in a column of the same name. -/
def plain (name : String) (type : DataType) : Property := ⟨name, none, type, none⟩

/-- The name of the column. -/
def columnName (p : Property) : String := p.column.getD p.name

end Property

namespace EntityType

/-- An entity without properties, stored in a table of the same name. -/
def plain (name : String) : EntityType := ⟨name, none, none, []⟩

/-- The entity stored in another table. -/
def withTable (e : EntityType) (table : String) (schema : Option String) : EntityType :=
  { e with table := some table, schema }

/-- The entity with one more property. -/
def withProperty (e : EntityType) (p : Property) : EntityType :=
  { e with properties := e.properties ++ [p] }

/-- The name of the table. -/
def tableName (e : EntityType) : String := e.table.getD e.name

/-- The first property with a name. -/
def findProperty? (e : EntityType) (name : String) : Option Property :=
  e.properties.find? (·.name == name)

end EntityType

namespace Model

/-- The model without entities. -/
def empty : Model := ⟨[]⟩

/-- The model with one more entity. -/
def withEntity (m : Model) (e : EntityType) : Model := { m with entities := m.entities ++ [e] }

/-- The first entity with a name. -/
def findEntity? (m : Model) (name : String) : Option EntityType :=
  m.entities.find? (·.name == name)

end Model

end QueryPipeline
