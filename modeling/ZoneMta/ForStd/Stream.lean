import Mathlib

/-!
# Chunked streams

A transform stream consumes a list of chunks one by one, carries a state from
chunk to chunk and pushes chunks downstream. `runStream_invariant` is the induction
rule for it: a relation between what was consumed, what was pushed and the state
holds of the whole run if every chunk keeps it, however the input is cut.
-/

namespace ForStd

variable {α β σ : Type*}

/-- Feed the chunks one by one; the second component lists the pushed chunks in order. -/
def runStream (f : σ → List α → σ × List (List β)) : σ → List (List α) → σ × List (List β)
  | s, [] => (s, [])
  | s, c :: cs =>
    let (s', out) := f s c
    let (s'', outs) := runStream f s' cs
    (s'', out ++ outs)

@[simp] theorem runStream_nil (f : σ → List α → σ × List (List β)) (s : σ) :
    runStream f s [] = (s, []) := rfl

theorem runStream_cons (f : σ → List α → σ × List (List β)) (s : σ) (c : List α)
    (cs : List (List α)) :
    runStream f s (c :: cs) =
      ((runStream f (f s c).1 cs).1, (f s c).2 ++ (runStream f (f s c).1 cs).2) := rfl

/-- A relation `I consumed pushed state` that every chunk keeps holds of the run. -/
theorem runStream_invariant {f : σ → List α → σ × List (List β)}
    {I : List α → List β → σ → Prop}
    (hstep : ∀ xs ys s c, I xs ys s → I (xs ++ c) (ys ++ (f s c).2.flatten) (f s c).1)
    (xs : List α) (ys : List β) (s : σ) (h : I xs ys s) (cs : List (List α)) :
    I (xs ++ cs.flatten) (ys ++ (runStream f s cs).2.flatten) (runStream f s cs).1 := by
  induction cs generalizing xs ys s with
  | nil => simpa using h
  | cons c cs ih =>
    have hnext := ih _ _ _ (hstep xs ys s c h)
    simpa only [runStream_cons, List.flatten_cons, List.flatten_append, List.append_assoc] using hnext

end ForStd
