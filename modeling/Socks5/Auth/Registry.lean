import Socks5.Auth.Method

/-!
# The methods on offer

A registry holds at most one method for each id, in the order of the ids, and a method for the
case that none is acceptable. A method that is registered takes the place of an earlier one with
its id.
-/

namespace Socks5

/-- The methods that a server can run and a client can offer. -/
structure MethodRegistry where
  methods : List Method
  fallback : Method

namespace MethodRegistry

/-- No method at all. -/
def empty : MethodRegistry := ⟨[], .noAcceptable⟩

/-- Puts a method where its id belongs. -/
def insert (m : Method) : List Method → List Method
  | [] => [m]
  | k :: rest =>
    if m.id < k.id then m :: k :: rest
    else if m.id = k.id then m :: rest
    else k :: insert m rest

/-- Registers a method. With the id that says that no method is acceptable, it becomes the method
for that case. -/
def register (r : MethodRegistry) (m : Method) : MethodRegistry :=
  if m.id = .noAcceptable then { r with fallback := m }
  else { r with methods := insert m r.methods }

/-- The registry of some methods, registered in their order. -/
def ofList (methods : List Method) : MethodRegistry := methods.foldl register empty

/-- The method of an id. -/
def get? (r : MethodRegistry) (id : MethodId) : Option Method := r.methods.find? (·.id = id)

/-- Whether an id has a method. -/
def contains (r : MethodRegistry) (id : MethodId) : Bool := (r.get? id).isSome

/-- The ids that have a method, in ascending order. -/
def supported (r : MethodRegistry) : List MethodId := r.methods.map (·.id)

/-- The id to choose from an offer: the first that has a method. -/
def select (r : MethodRegistry) (offered : List MethodId) : MethodId :=
  (offered.find? r.contains).getD .noAcceptable

/-- The method to run for an id. -/
def resolve (r : MethodRegistry) (id : MethodId) : Method := (r.get? id).getD r.fallback

/-! ## Laws -/

theorem find?_insert (m : Method) (methods : List Method) (id : MethodId) :
    (insert m methods).find? (·.id = id) =
      if m.id = id then some m else methods.find? (·.id = id) := by
  induction methods with
  | nil => by_cases h : m.id = id <;> simp [insert, h]
  | cons k rest ih =>
    by_cases hm : m.id = id
    · subst hm
      by_cases hlt : m.id < k.id
      · simp [insert, hlt]
      · by_cases heq : m.id = k.id
        · simp [insert, heq]
        · simp only [insert, hlt, heq, ↓reduceIte] at ih ⊢
          rw [List.find?_cons_of_neg (by simpa using fun h => heq h.symm), ih]
    · by_cases hlt : m.id < k.id
      · simp [insert, hlt, hm]
      · by_cases heq : m.id = k.id
        · have hk : k.id ≠ id := heq ▸ hm
          simp [insert, heq, hk]
        · simp only [insert, hlt, heq, hm, ↓reduceIte, List.find?_cons] at ih ⊢
          split
          · rfl
          · exact ih

/-- The method of an id is the one that was registered for it last. -/
theorem get?_register {m : Method} (h : m.id ≠ .noAcceptable) (r : MethodRegistry)
    (id : MethodId) : (r.register m).get? id = if m.id = id then some m else r.get? id := by
  simp only [register, h, ↓reduceIte, get?]
  exact find?_insert m r.methods id

@[simp] theorem fallback_register {m : Method} (h : m.id ≠ .noAcceptable) (r : MethodRegistry) :
    (r.register m).fallback = r.fallback := by
  simp [register, h]

/-- What is registered for the case that no method is acceptable is no method on offer. -/
theorem register_noAcceptable {m : Method} (h : m.id = .noAcceptable) (r : MethodRegistry) :
    r.register m = { r with fallback := m } := by
  simp [register, h]

end MethodRegistry

end Socks5
