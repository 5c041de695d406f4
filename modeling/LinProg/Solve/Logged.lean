import LinProg.Fault

namespace LinProg

/-- The outcome of a computation that may fail, and the messages it left either way. -/
structure Logged (ε α : Type) where
  events : List ε
  result : Except Fault α

namespace Logged

variable {ε α β : Type}

def bind (x : Logged ε α) (f : α → Logged ε β) : Logged ε β :=
  match x.result with
  | .ok a => ⟨x.events ++ (f a).events, (f a).result⟩
  | .error e => ⟨x.events, .error e⟩

instance : Monad (Logged ε) where
  pure a := ⟨[], .ok a⟩
  bind := bind

instance : MonadLift (Except Fault) (Logged ε) := ⟨fun r => ⟨[], r⟩⟩

def fail (e : Fault) : Logged ε α := ⟨[], .error e⟩

def notes (l : List ε) : Logged ε Unit := ⟨l, .ok ()⟩

def note (e : ε) : Logged ε Unit := notes [e]

@[simp]
theorem result_pure (a : α) : (pure a : Logged ε α).result = .ok a := rfl

@[simp]
theorem result_bind (x : Logged ε α) (f : α → Logged ε β) :
    (x >>= f).result = x.result >>= fun a => (f a).result := by
  change (x.bind f).result = _
  unfold bind
  cases h : x.result <;> rfl

@[simp]
theorem result_lift (r : Except Fault α) : (liftM r : Logged ε α).result = r := rfl

@[simp]
theorem result_fail (e : Fault) : (fail e : Logged ε α).result = .error e := rfl

@[simp]
theorem result_notes (l : List ε) : (notes l).result = .ok () := rfl

@[simp]
theorem result_note (e : ε) : (note e).result = .ok () := rfl

end Logged

end LinProg
