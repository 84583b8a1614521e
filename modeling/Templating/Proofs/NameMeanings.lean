import Templating.Proofs.ChronicleRender

/-!
What names mean in a render.
-/
namespace Templating

variable {σ : Type}

/-- Where only names are of interest, nothing is supposed. -/
theorem Premises.hold_of_names (e : Engine) (load : Loader σ) :
    Premises.Hold ⟨fun _ => True, False⟩ e load where
  tags := nofun
  kept _ _ _ := trivial
  named := nofun
  failing := nofun

/-- In a render every name that is looked up has the value of what it means there, else that of the
global of its name, and else none. Outside functions it means what the template being run has
written to it last, else what the innermost frame of data held under it at the beginning, else the
global of that time; in a call of a function it means what the call has bound to it last, and else
what it meant where the literal of the function was evaluated. -/
theorem Engine.looked_up_means (e : Engine) (load : Loader σ) (request : Request) (data : Value)
    (state : EngineState σ) :
    let (outcome, record) := e.renderNoted load request data state
    outcome = (e.renderRequest load request data).run state ∧
      ∀ i before name v, i :: before <:+ record.names.instants → i.event = .looked name v →
        (∃ meaning, Means Running.lookup record.names.given name (i :: before) meaning) ∧
          ∀ meaning, Means Running.lookup record.names.given name (i :: before) meaning →
            v = (meaning.or (global? name)).getD .undefined := by
  obtain ⟨hprogram, -, hsound, -⟩ :=
    e.renderNoted_comes (Premises.hold_of_names e load) (Premises.asks_host False.elim) data state
      trivial
  exact ⟨hprogram, fun i before name v hi hevent => hsound.looked hi hevent⟩

def shadowing : Engine :=
  .plain (.ofList [("/t", "\x7b\x7b x \x7d\x7d\x7b\x7b ((x) => x + x)('c') \x7d\x7d")])
    fun _ _ => .ok .undefined

example :
    (shadowing.renderNoted (shadowing.cached Prod.mk) (shadowing.pathRequest "/t")
      (.object 0 [("x", .string "a")]) shadowing.initialState).2.names.instants.filterMap (fun i =>
        match i.event with
        | .looked name (.string text) => some (name, text)
        | _ => none) = [("x", "c"), ("x", "c"), ("x", "a")] := by
  decide +kernel

end Templating
