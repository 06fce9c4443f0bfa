import TickScript.Settings.Record

/-!
# Settings of query nodes

Searches with filters, objects by their id, looks around a position, and the best item of a list.
-/

namespace TickScript.Kind

open TickScript.Settings

/-- Whether a search gives all its results. -/
inductive SearchMode where
  | all
  | first
  deriving DecidableEq

/-- The names of search modes. -/
def SearchMode.choice : Choice SearchMode where
  all := [.all, .first]
  name
    | .all => "all"
    | .first => "first"

/-- How a filter compares; an unknown comparison filters nothing. -/
inductive Comparison where
  | eq
  | ne
  | lt
  | lte
  | gt
  | gte
  | included
  | unknown
  deriving DecidableEq

/-- The names of comparisons; any other name is an unknown comparison. -/
def Comparison.choice : Choice Comparison where
  all := [.eq, .ne, .lt, .lte, .gt, .gte, .included]
  name
    | .eq => "eq"
    | .ne => "ne"
    | .lt => "lt"
    | .lte => "lte"
    | .gt => "gt"
    | .gte => "gte"
    | .included => "in"
    | .unknown => "unknown"
  other := some .unknown

/-- One condition on the objects of a search. -/
structure Filter where
  field : Option String := none
  op : Option Comparison := none
  value : Literal := .undefined
  deriving BEq

/-- How a filter is read. -/
def Filter.record : Record Filter where
  name := "SearchFilter"
  fields := [
    .defaulted "field" (.optional .text) (·.field) fun record field => { record with field },
    .defaulted "op" (.optional Comparison.choice.codec) (·.op) fun record op => { record with op },
    .defaulted "value" .literal (·.value) fun record value => { record with value }]
  blank := {}

/-- The settings of a search. -/
structure Search where
  find : String := "FIND_STRUCTURES"
  filters : List Filter := []
  limit : Option Nat := none
  mode : SearchMode := .all
  deriving BEq

/-- How a search is read. -/
def Search.record : Record Search where
  name := "SearchConfig"
  fields := [
    .defaulted "find" .text (·.find) fun record find => { record with find },
    .defaulted "filters" (.list Filter.record.codec) (·.filters)
      fun record filters => { record with filters },
    .defaulted "limit" (.optional .unsigned32) (·.limit) fun record limit => { record with limit },
    .defaulted "mode" SearchMode.choice.codec (·.mode) fun record mode => { record with mode }]
  blank := {}

/-- The settings of an object by its id. -/
structure ById where
  id : Option String := none
  deriving BEq

/-- How an object by its id is read. -/
def ById.record : Record ById where
  name := "ByIdConfig"
  fields := [.defaulted "id" (.optional .text) (·.id) fun record id => { record with id }]
  blank := {}

/-- Whether a look covers an area or a point. -/
inductive LookMode where
  | area
  | point
  deriving DecidableEq

/-- The names of look modes. -/
def LookMode.choice : Choice LookMode where
  all := [.area, .point]
  name
    | .area => "area"
    | .point => "point"

/-- The settings of a look. -/
structure Look where
  look : String := "LOOK_CREEPS"
  radius : Nat := 1
  mode : LookMode := .area
  deriving BEq

/-- How a look is read. -/
def Look.record : Record Look where
  name := "LookConfig"
  fields := [
    .defaulted "look" .text (·.look) fun record look => { record with look },
    .defaulted "radius" .unsigned32 (·.radius) fun record radius => { record with radius },
    .defaulted "mode" LookMode.choice.codec (·.mode) fun record mode => { record with mode }]
  blank := {}

/-- What makes an item the best of a list. -/
inductive BestStrategy where
  | range
  | path
  | min
  | max
  deriving DecidableEq

/-- The names of strategies. -/
def BestStrategy.choice : Choice BestStrategy where
  all := [.range, .path, .min, .max]
  name
    | .range => "range"
    | .path => "path"
    | .min => "min"
    | .max => "max"

/-- The settings of a best item. -/
structure Best where
  strategy : BestStrategy := .range
  key : Option String := none
  deriving BEq

/-- How a best item is read. -/
def Best.record : Record Best where
  name := "BestConfig"
  fields := [
    .defaulted "strategy" BestStrategy.choice.codec (·.strategy)
      fun record strategy => { record with strategy },
    .defaulted "key" (.optional .text) (·.key) fun record key => { record with key }]
  blank := {}

end TickScript.Kind
