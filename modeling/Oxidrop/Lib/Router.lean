import Mathlib.Data.List.Nodup

/-!
# Routers

A router is a list of routes, each with the layers that a request passes before
its endpoint, the outermost first. Routers are merged and nested below a path. A
layer covers the routes that are there when it is added, and none that is merged
later.
-/
namespace Routing

variable {M E L : Type*}

structure Route (M E L : Type*) where
  path : String
  method : M
  endpoint : E
  layers : List L
  deriving DecidableEq, Repr

abbrev Router (M E L : Type*) := List (Route M E L)

def route (path : String) (handlers : List (M × E)) : Router M E L :=
  handlers.map fun h => ⟨path, h.1, h.2, []⟩

/-- A route at `/` keeps the path of its nest. -/
def nestPath (outer inner : String) : String := if inner = "/" then outer else outer ++ inner

def nest (outer : String) (r : Router M E L) : Router M E L :=
  r.map fun x => { x with path := nestPath outer x.path }

def routeLayer (layer : L) (r : Router M E L) : Router M E L :=
  r.map fun x => { x with layers := layer :: x.layers }

def merge (r r' : Router M E L) : Router M E L := r ++ r'

/-- The route that a request is for. -/
def dispatch [DecidableEq M] (r : Router M E L) (method : M) (path : String) :
    Option (Route M E L) :=
  r.find? fun x => x.path = path ∧ x.method = method

/-- A route of the path, whatever its method. The layers of a path cover it as a whole. -/
def covering (r : Router M E L) (path : String) : Option (Route M E L) :=
  r.find? fun x => x.path = path

/-- Every route meets `P`, which speaks of its endpoint and its layers. -/
def Every (P : E → List L → Prop) (r : Router M E L) : Prop :=
  ∀ x ∈ r, P x.endpoint x.layers

section Every

variable {P : E → List L → Prop} {r r' : Router M E L}

theorem every_route {path : String} {handlers : List (M × E)} :
    Every P (route path handlers : Router M E L) ↔ ∀ h ∈ handlers, P h.2 [] := by
  simp only [Every, route, List.forall_mem_map]

@[simp] theorem every_nest {outer : String} : Every P (nest outer r) ↔ Every P r := by
  simp [Every, nest]

@[simp] theorem every_merge : Every P (merge r r') ↔ Every P r ∧ Every P r' := by
  simp only [Every, merge, List.mem_append]
  constructor
  · intro h
    exact ⟨fun x hx => h x (.inl hx), fun x hx => h x (.inr hx)⟩
  · rintro ⟨h, h'⟩ x (hx | hx)
    · exact h x hx
    · exact h' x hx

/-- A layer is the outermost one of every route that it covers. -/
@[simp] theorem every_routeLayer {layer : L} :
    Every P (routeLayer layer r) ↔ Every (fun e layers => P e (layer :: layers)) r := by
  simp [Every, routeLayer]

end Every

variable [DecidableEq M] {r : Router M E L} {method : M} {path : String} {x : Route M E L}

theorem mem_of_dispatch (h : dispatch r method path = some x) : x ∈ r :=
  List.mem_of_find?_eq_some h

/-- What holds of every route holds of the one that a request is for. -/
theorem Every.dispatch {P : E → List L → Prop} (hr : Every P r)
    (h : dispatch r method path = some x) : P x.endpoint x.layers :=
  hr x (mem_of_dispatch h)

end Routing
