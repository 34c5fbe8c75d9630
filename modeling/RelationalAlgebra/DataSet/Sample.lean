import RelationalAlgebra.DataSet

/-!
# A small data set to play with

Countries, lakes, population and area: facts of the world for when no database is given.
-/
namespace RelationalAlgebra.DataSet

def textTextNumber (s t : String) (n : Int) : List Value := [.text s, .text t, .number n]

def textNumber (s : String) (n : Int) : List Value := [.text s, .number n]

def countries : Except Error Relation :=
  Relation.ofRows "countries" [("name", .string), ("code", .string), ("founded", .number)] [
    textTextNumber "United States" "US" 1776,
    textTextNumber "Argentina" "AR" 1816,
    textTextNumber "Yemen" "YE" 1990,
    textTextNumber "Ghana" "GH" 1957,
    textTextNumber "Mongolia" "MO" 1207,
    textTextNumber "New Zealand" "NZ" 1840]

def lakes : Except Error Relation :=
  Relation.ofRows "lakes" [("name", .string), ("country", .string), ("surface_area", .number)] [
    textTextNumber "Taupo" "NZ" 616,
    textTextNumber "Khyargas" "MO" 1407,
    textTextNumber "Umiam" "IN" 220,
    textTextNumber "Volta" "GH" 8502,
    textTextNumber "Erie" "US" 9910,
    textTextNumber "Bosumtwi" "GH" 49,
    textTextNumber "Jordan" "US" 129,
    textTextNumber "Superior" "US" 31700,
    textTextNumber "Sangiin Dalai" "MO" 165,
    textTextNumber "Nahuel Huapi" "AR" 530,
    textTextNumber "Uvs" "MO" 3350,
    textTextNumber "Wanaka" "NZ" 192]

def population : Except Error Relation :=
  Relation.ofRows "population" [("country", .string), ("number", .number)] [
    textNumber "IN" 1252000000,
    textNumber "NZ" 4471000,
    textNumber "AR" 40412000,
    textNumber "MO" 2839000,
    textNumber "YE" 24410000,
    textNumber "US" 318900000,
    textNumber "GH" 25900000,
    textNumber "IE" 4595000]

def area : Except Error Relation :=
  Relation.ofRows "area" [("country", .string), ("number", .number)] [
    textNumber "NZ" 103483,
    textNumber "GH" 92099,
    textNumber "US" 3806000,
    textNumber "MO" 604600,
    textNumber "IN" 1269000,
    textNumber "YE" 203891,
    textNumber "ES" 194845,
    textNumber "AR" 1074000,
    textNumber "ZW" 150872]

def sample : Except Error DataSet := do
  return .ofList [("countries", ← countries), ("lakes", ← lakes), ("population", ← population),
    ("area", ← area)]

end RelationalAlgebra.DataSet
