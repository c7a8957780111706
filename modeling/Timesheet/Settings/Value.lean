namespace Timesheet.Settings

/-- No setting is a number, so all numbers are alike here. -/
inductive Value where
  | text (s : String)
  | bool (b : Bool)
  | number
  | list (items : List Value)
  | table (members : List (String × Value))

namespace Value

abbrev Members := List (String × Value)

def put (k : String) (v : Value) : Members → Members
  | [] => [(k, v)]
  | m :: ms => if m.1 = k then (k, v) :: ms else m :: put k v ms

mutual

/-- Tables are merged member by member; of anything else the second counts. -/
def override (u : Value) : Value → Value
  | table ns =>
    match u with
    | table ms => table (overrideMembers ms ns)
    | _ => table ns
  | v => v

def overrideMembers (ms : Members) : Members → Members
  | [] => ms
  | (k, v) :: ns =>
    overrideMembers (put k (match ms.lookup k with | some u => override u v | none => v) ms) ns

end

def nest : List String → Value → Value
  | [], v => v
  | k :: ks, v => table [(k, nest ks v)]

end Value
end Timesheet.Settings
