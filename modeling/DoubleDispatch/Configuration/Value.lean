/-!
# Layers of settings

Settings come from several layers: a file, the environment. What a layer says is a value before it
is known which settings there are, and a later layer is laid over an earlier one.
-/

namespace DoubleDispatch

/-- What a layer says. No setting is a number, so only that there is one is kept. -/
inductive LayerValue where
  | null
  | number
  | bool (b : Bool)
  | text (s : String)
  | list (values : List LayerValue)
  | table (fields : List (String × LayerValue))
deriving Repr, Inhabited

namespace LayerValue

/-- The fields of a table with one field set. -/
def setField (fields : List (String × LayerValue)) (key : String) (value : LayerValue) :
    List (String × LayerValue) :=
  match fields with
  | [] => [(key, value)]
  | (k, v) :: fields =>
    if k = key then (k, value) :: fields else (k, v) :: setField fields key value

mutual

/-- One value laid over another: tables are joined field by field, all else is replaced. -/
def overlay (lower : LayerValue) : LayerValue → LayerValue
  | table fields =>
    match lower with
    | table lowerFields => table (overlayFields lowerFields fields)
    | _ => table fields
  | upper => upper

/-- The fields of one table laid over those of another. -/
def overlayFields (lower : List (String × LayerValue)) :
    List (String × LayerValue) → List (String × LayerValue)
  | [] => lower
  | (key, value) :: fields =>
    let joined := match lower.lookup key with
      | some under => overlay under value
      | none => value
    overlayFields (setField lower key joined) fields

end

/-- The table that holds a value under a path of keys. -/
def nest : List String → LayerValue → LayerValue
  | [], value => value
  | key :: keys, value => table [(key, nest keys value)]

end LayerValue

end DoubleDispatch
