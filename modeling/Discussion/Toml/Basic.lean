/-!
# TOML values

Values of the TOML configuration format as far as settings need them.  Floating
point numbers and dates are kept as they are written.
-/

namespace Discussion

/-- A TOML value. -/
inductive Toml
  | string (s : String)
  | integer (i : Int)
  | float (text : String)
  | bool (b : Bool)
  | date (text : String)
  | array (items : List Toml)
  | table (entries : List (String × Toml))
deriving Repr, Inhabited

end Discussion
