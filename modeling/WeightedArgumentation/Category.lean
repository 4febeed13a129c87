import WeightedArgumentation.Table

/-!
# Categories

Every argument belongs to a category.  A configuration lists the categories in
use with the label and the colour they are shown with, in the order in which
they were declared.  A configuration is split into a table of labels and a
table of colours for storage, and rebuilt from the two.
-/

namespace WeightedArgumentation

/-- How a category is shown. -/
structure Category where
  label : String
  color : String
  deriving DecidableEq, Repr

/-- The configured categories by key. -/
structure CategoryConfig where
  table : Table Category
  deriving DecidableEq

namespace CategoryConfig

/-- The key of the economic category. -/
def economic : String := "eco"

/-- The key of the environmental category. -/
def environmental : String := "env"

/-- The configuration without categories. -/
def empty : CategoryConfig := ⟨.empty⟩

/-- Declares a category, or replaces one in its place. -/
def declare (config : CategoryConfig) (key label color : String) : CategoryConfig :=
  ⟨config.table.set key ⟨label, color⟩⟩

/-- Whether a key is configured. -/
def contains (config : CategoryConfig) (key : String) : Bool := config.table.contains key

/-- The category of a key. -/
def get? (config : CategoryConfig) (key : String) : Option Category := config.table.get? key

/-- The configured keys in order. -/
def keys (config : CategoryConfig) : List String := config.table.keys

/-- The number of categories. -/
def size (config : CategoryConfig) : Nat := config.table.size

/-- Whether no category is configured. -/
def isEmpty (config : CategoryConfig) : Bool := config.table.isEmpty

/-- The label of every key. -/
def labels (config : CategoryConfig) : Table String := config.table.map Category.label

/-- The colour of every key. -/
def colors (config : CategoryConfig) : Table String := config.table.map Category.color

/-- The configuration that a table of labels and a table of colours describe:
first the labelled keys, each with its colour if it has one, then the keys that
only have a colour, which are their own labels. -/
def ofTables (labels colors : Table String) : CategoryConfig :=
  let labelled := labels.rows.foldl
    (fun config row => config.declare row.1 row.2 ((colors.get? row.1).getD "")) empty
  colors.rows.foldl
    (fun config row => if config.contains row.1 then config else config.declare row.1 row.1 row.2)
    labelled

/-- Whether two configurations hold the same categories, in any order. -/
def sameCategories (left right : CategoryConfig) : Bool :=
  left.table.sameContents (· == ·) right.table

end CategoryConfig

end WeightedArgumentation
