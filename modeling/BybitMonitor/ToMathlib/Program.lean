import Mathlib.Logic.Relation

/-!
# Programs that ask an environment

A program returns, raises, or asks its environment a question and goes on with the reply. What its
environment does between two questions is not part of the program, so that a program may be run
alone or be interleaved with others.

* `Program.Meets`: the program asks only what a protocol allows, and ends as stated, whatever the
  replies are that the protocol admits.
* `Program.meets_bind`, `Program.meets_tryCatch`, `Program.meets_forM`, `Program.meets_gather`: its
  rules.
* `Program.Meets.along`, `Program.Meets.prod`: simulated protocols, and two protocols at once.
* `Program.Asks`: the program asks only some questions.
* `Program.Protocol.interleaved`: the protocol of a party whose environment moves too.
* `Program.Meets.reaches`: a run of the program alone follows the protocol.
* `Program.drive`: a run alone that is computed.
-/

/-- A program over questions `E` with replies `R` that raises `ε` or returns `α`. -/
inductive Program (E : Type) (R : E → Type) (ε α : Type)
  | done (outcome : Except ε α)
  | ask (question : E) (next : R question → Program E R ε α)

namespace Program

variable {E : Type} {R : E → Type} {ε α β : Type}

/-- Continue with what a program returns, unless it raises. -/
def bind : Program E R ε α → (α → Program E R ε β) → Program E R ε β
  | done (.ok a), f => f a
  | done (.error e), _ => done (.error e)
  | ask question next, f => ask question fun reply => (next reply).bind f

instance : Monad (Program E R ε) where
  pure a := done (.ok a)
  bind := bind

/-- Raise. -/
def throw (e : ε) : Program E R ε α := done (.error e)

/-- A computation that asks nothing. -/
def lift (x : Except ε α) : Program E R ε α := done x

/-- Run a handler if the program raises. -/
def tryCatch : Program E R ε α → (ε → Program E R ε α) → Program E R ε α
  | done (.ok a), _ => done (.ok a)
  | done (.error e), handler => handler e
  | ask question next, handler => ask question fun reply => (next reply).tryCatch handler

/-- Ask one question and return the reply. -/
def perform (question : E) : Program E R ε (R question) :=
  ask question fun reply => done (.ok reply)

/-- Run a body for each item, and collect what it returns. -/
def gather {ι : Type} (body : ι → Program E R ε (Option β)) : List ι → Program E R ε (List β)
  | [] => pure []
  | i :: rest => do
      let first ← body i
      let others ← gather body rest
      return first.toList ++ others

/-- The program asks only what is allowed, whatever the replies are. -/
def Asks (allowed : E → Prop) : Program E R ε α → Prop
  | done _ => True
  | ask question next => allowed question ∧ ∀ reply, (next reply).Asks allowed

theorem asks_bind {allowed : E → Prop} {p : Program E R ε α} {f : α → Program E R ε β}
    (hp : p.Asks allowed) (hf : ∀ a, (f a).Asks allowed) : (p >>= f).Asks allowed := by
  show (p.bind f).Asks allowed
  induction p with
  | done outcome =>
      cases outcome with
      | ok a => exact hf a
      | error e => trivial
  | ask question next ih => exact ⟨hp.1, fun reply => ih reply (hp.2 reply)⟩

theorem asks_gather_of_mem {ι : Type} {allowed : E → Prop} {body : ι → Program E R ε (Option β)}
    {items : List ι} (hbody : ∀ i ∈ items, (body i).Asks allowed) :
    (gather body items).Asks allowed := by
  induction items with
  | nil => trivial
  | cons i rest ih =>
      refine asks_bind (hbody i List.mem_cons_self) fun _ => asks_bind (ih ?_) fun _ => trivial
      exact fun j hj => hbody j (List.mem_cons_of_mem _ hj)

theorem asks_gather {ι : Type} {allowed : E → Prop} {body : ι → Program E R ε (Option β)}
    (hbody : ∀ i, (body i).Asks allowed) (items : List ι) : (gather body items).Asks allowed :=
  asks_gather_of_mem fun i _ => hbody i

theorem asks_forM {ι : Type} {allowed : E → Prop} {body : ι → Program E R ε PUnit}
    (hbody : ∀ i, (body i).Asks allowed) (items : List ι) : (items.forM body).Asks allowed := by
  induction items with
  | nil => trivial
  | cons i rest ih => exact asks_bind (hbody i) fun _ => ih

/-- What a party may ask in a state, and the states that a reply leads to. -/
structure Protocol (E : Type) (R : E → Type) (γ : Type) where
  Allows : γ → E → Prop
  Moves : γ → (question : E) → R question → γ → Prop

variable {γ : Type} {P : Protocol E R γ}

/-- The program keeps to the protocol from a state on, and ends with `post`. -/
def Meets (P : Protocol E R γ) : Program E R ε α → γ → (Except ε α → γ → Prop) → Prop
  | done outcome, g, post => post outcome g
  | ask question next, g, post =>
      P.Allows g question ∧
        ∀ reply g', P.Moves g question reply g' → (next reply).Meets P g' post

theorem meets_perform {question : E} {g : γ} {post : Except ε (R question) → γ → Prop} :
    (perform question : Program E R ε (R question)).Meets P g post ↔ P.Allows g question ∧
      ∀ reply g', P.Moves g question reply g' → post (.ok reply) g' := Iff.rfl

/-- A weaker end is met too. -/
theorem Meets.mono {p : Program E R ε α} {g : γ} {post post' : Except ε α → γ → Prop}
    (h : p.Meets P g post) (hpost : ∀ outcome g', post outcome g' → post' outcome g') :
    p.Meets P g post' := by
  induction p generalizing g with
  | done outcome => exact hpost outcome g h
  | ask question next ih => exact ⟨h.1, fun reply g' hmove => ih reply (h.2 reply g' hmove)⟩

/-- What every allowed question keeps holds at the end. -/
theorem Meets.frame {p : Program E R ε α} {g : γ} {post : Except ε α → γ → Prop} {F : γ → Prop}
    (h : p.Meets P g post) (hF : F g)
    (hmoves : ∀ g question reply g', P.Allows g question → P.Moves g question reply g' →
      F g → F g') : p.Meets P g fun outcome g' => post outcome g' ∧ F g' := by
  induction p generalizing g with
  | done outcome => exact ⟨h, hF⟩
  | ask question next ih =>
      exact ⟨h.1, fun reply g' hmove =>
        ih reply (h.2 reply g' hmove) (hmoves g question reply g' h.1 hmove hF)⟩

/-- What the allowed questions keep holds when a program that asks only these has ended. -/
theorem Asks.meets {allowed : E → Prop} {p : Program E R ε α} {g : γ} {F : γ → Prop}
    (h : p.Asks allowed) (hF : F g) (hallows : ∀ g question, allowed question → P.Allows g question)
    (hmoves : ∀ g question reply g', allowed question → P.Moves g question reply g' → F g → F g') :
    p.Meets P g fun _ g' => F g' := by
  induction p generalizing g with
  | done outcome => exact hF
  | ask question next ih =>
      refine ⟨hallows g question h.1, fun reply g' hmove => ?_⟩
      exact ih reply (h.2 reply) (hmoves g question reply g' h.1 hmove hF)

/-- A program keeps to a protocol that another one simulates, as long as it asks what the latter
allows. -/
theorem Meets.along {δ : Type} {Q : Protocol E R δ} {S : γ → δ → Prop} {p : Program E R ε α}
    {g : γ} {d : δ} {post : Except ε α → γ → Prop} {post' : Except ε α → δ → Prop}
    (h : p.Meets P g post) (hrel : S g d)
    (hallows : ∀ g d question, S g d → P.Allows g question → Q.Allows d question)
    (hmoves : ∀ g d question reply d', S g d → P.Allows g question →
      Q.Moves d question reply d' → ∃ g', P.Moves g question reply g' ∧ S g' d')
    (hpost : ∀ outcome g d, S g d → post outcome g → post' outcome d) : p.Meets Q d post' := by
  induction p generalizing g d with
  | done outcome => exact hpost outcome g d hrel h
  | ask question next ih =>
      refine ⟨hallows g d question hrel h.1, fun reply d' hmove => ?_⟩
      obtain ⟨g', hmove', hrel'⟩ := hmoves g d question reply d' hrel h.1 hmove
      exact ih reply (h.2 reply g' hmove') hrel'

/-- Two protocols at once. -/
def Protocol.prod {δ : Type} (P : Protocol E R γ) (Q : Protocol E R δ) : Protocol E R (γ × δ) where
  Allows g question := P.Allows g.1 question ∧ Q.Allows g.2 question
  Moves g question reply g' := P.Moves g.1 question reply g'.1 ∧ Q.Moves g.2 question reply g'.2

/-- A program that keeps to two protocols ends as both state. -/
theorem Meets.prod {δ : Type} {Q : Protocol E R δ} {p : Program E R ε α} {g : γ} {d : δ}
    {post : Except ε α → γ → Prop} {post' : Except ε α → δ → Prop} (h : p.Meets P g post)
    (h' : p.Meets Q d post') :
    p.Meets (P.prod Q) (g, d) fun outcome g => post outcome g.1 ∧ post' outcome g.2 := by
  induction p generalizing g d with
  | done outcome => exact ⟨h, h'⟩
  | ask question next ih =>
      exact ⟨⟨h.1, h'.1⟩, fun reply g' hmove =>
        ih reply (h.2 reply g'.1 hmove.1) (h'.2 reply g'.2 hmove.2)⟩

/-- What is allowed may be asked, and every reply is possible. -/
def Protocol.asking (allowed : E → Prop) : Protocol E R Unit where
  Allows _ question := allowed question
  Moves _ _ _ _ := True

theorem Asks.asking {allowed : E → Prop} {p : Program E R ε α} (h : p.Asks allowed) :
    p.Meets (.asking allowed) () fun _ _ => True :=
  h.meets trivial (fun _ _ hallowed => hallowed) fun _ _ _ _ _ _ _ => trivial

/-- A sequence asks only what is allowed, if its second part does so from what its first part may
return. -/
theorem asks_bind_of_returns {allowed : E → Prop} {p : Program E R ε α}
    {f : α → Program E R ε β} {post : α → Prop}
    (hp : p.Meets (.asking allowed) () fun outcome _ => ∀ a, outcome = .ok a → post a)
    (hf : ∀ a, post a → (f a).Asks allowed) : (p >>= f).Asks allowed := by
  show (p.bind f).Asks allowed
  induction p with
  | done outcome =>
      cases outcome with
      | ok a => exact hf a (hp a rfl)
      | error e => trivial
  | ask question next ih => exact ⟨hp.1, fun reply => ih reply (hp.2 reply () trivial)⟩

/-- A sequence meets what its second part ends with, if its first part ends where the second one
may begin. -/
theorem meets_bind {p : Program E R ε α} {f : α → Program E R ε β} {g : γ}
    {post : Except ε β → γ → Prop} :
    (p >>= f).Meets P g post ↔ p.Meets P g fun outcome g' =>
      match outcome with
      | .ok a => (f a).Meets P g' post
      | .error e => post (.error e) g' := by
  show (p.bind f).Meets P g post ↔ _
  induction p generalizing g with
  | done outcome => cases outcome <;> exact Iff.rfl
  | ask question next ih =>
      show (_ ∧ ∀ reply g', _ → ((next reply).bind f).Meets P g' post) ↔ _
      simp only [ih]
      exact Iff.rfl

/-- A handler begins where the program raises. -/
theorem meets_tryCatch {p : Program E R ε α} {handler : ε → Program E R ε α} {g : γ}
    {post : Except ε α → γ → Prop} :
    (p.tryCatch handler).Meets P g post ↔ p.Meets P g fun outcome g' =>
      match outcome with
      | .ok a => post (.ok a) g'
      | .error e => (handler e).Meets P g' post := by
  induction p generalizing g with
  | done outcome => cases outcome <;> exact Iff.rfl
  | ask question next ih =>
      show (_ ∧ ∀ reply g', _ → ((next reply).tryCatch handler).Meets P g' post) ↔ _
      simp only [ih]
      exact Iff.rfl

/-- A loop meets its end, if its body leads from the invariant of a list to that of the rest. -/
theorem meets_forM {ι : Type} {body : ι → Program E R ε PUnit} {post : Except ε PUnit → γ → Prop}
    (Inv : List ι → γ → Prop)
    (hbody : ∀ i rest g, Inv (i :: rest) g → (body i).Meets P g fun outcome g' =>
      match outcome with
      | .ok _ => Inv rest g'
      | .error e => post (.error e) g')
    (hend : ∀ g, Inv [] g → post (.ok ⟨⟩) g) {items : List ι} {g : γ} (h : Inv items g) :
    (items.forM body).Meets P g post := by
  induction items generalizing g with
  | nil => exact hend g h
  | cons i rest ih =>
      show (body i >>= fun _ => rest.forM body).Meets P g post
      refine meets_bind.mpr ((hbody i rest g h).mono fun outcome g' hnext => ?_)
      cases outcome with
      | ok _ => exact ih hnext
      | error e => exact hnext

/-- `meets_forM` for a loop that collects results. -/
theorem meets_gather {ι : Type} {body : ι → Program E R ε (Option β)}
    {post : Except ε (List β) → γ → Prop} (Inv : List ι → γ → Prop)
    (hbody : ∀ i rest g, Inv (i :: rest) g → (body i).Meets P g fun outcome g' =>
      match outcome with
      | .ok _ => Inv rest g'
      | .error e => post (.error e) g')
    (hend : ∀ results g, Inv [] g → post (.ok results) g) {items : List ι} {g : γ}
    (h : Inv items g) : (gather body items).Meets P g post := by
  have hall : (gather body items).Meets P g fun outcome g' =>
      match outcome with
      | .ok _ => Inv [] g'
      | .error e => post (.error e) g' := by
    induction items generalizing g with
    | nil => exact h
    | cons i rest ih =>
        refine meets_bind.mpr ((hbody i rest g h).mono fun outcome g' hnext => ?_)
        cases outcome with
        | error e => exact hnext
        | ok first =>
            refine meets_bind.mpr ((ih hnext).mono fun outcome g' hrest => ?_)
            cases outcome with
            | error e => exact hrest
            | ok others => exact hrest
  refine hall.mono fun outcome g' hlast => ?_
  cases outcome with
  | error e => exact hlast
  | ok results => exact hend results g' hlast

/-- The protocol of a party whose environment moves along `env` between two questions. -/
def Protocol.interleaved (P : Protocol E R γ) (env : γ → γ → Prop) : Protocol E R γ where
  Allows := P.Allows
  Moves g question reply g' := ∃ g₁, env g g₁ ∧ P.Moves g₁ question reply g'

section Interleaved

variable {env : γ → γ → Prop}

/-- What an interleaved party keeps to, it keeps to after its environment has moved. -/
theorem Meets.interleave {p : Program E R ε α} {g g' : γ} {post : Except ε α → γ → Prop}
    (h : p.Meets (P.interleaved env) g post) (hmove : env g g')
    (htrans : ∀ a b c, env a b → env b c → env a c)
    (hallows : ∀ question a b, P.Allows a question → env a b → P.Allows b question)
    (hpost : ∀ outcome a b, post outcome a → env a b → post outcome b) :
    p.Meets (P.interleaved env) g' post := by
  cases p with
  | done outcome => exact hpost outcome g g' h hmove
  | ask question next =>
      refine ⟨hallows question g g' h.1 hmove, ?_⟩
      rintro reply g₂ ⟨g₁, henv, hstep⟩
      exact h.2 reply g₂ ⟨g₁, htrans _ _ _ hmove henv, hstep⟩

/-- A question of an interleaved party is one of the party alone, in the state it is asked in. -/
theorem Meets.reply {question : E} {next : R question → Program E R ε α} {g g' : γ}
    {post : Except ε α → γ → Prop} {reply : R question}
    (h : (ask question next).Meets (P.interleaved env) g post) (hrefl : env g g)
    (hmove : P.Moves g question reply g') : (next reply).Meets (P.interleaved env) g' post :=
  h.2 reply g' ⟨g, hrefl, hmove⟩

end Interleaved

/-- A run of the program alone, from a state of its environment to another. -/
inductive Reaches (moves : γ → (question : E) → R question → γ → Prop) :
    Program E R ε α → γ → Program E R ε α → γ → Prop
  | refl (p : Program E R ε α) (g : γ) : Reaches moves p g p g
  | step {question : E} {next : R question → Program E R ε α} {g g₁ g' : γ}
      {p' : Program E R ε α} {reply : R question} (first : moves g question reply g₁)
      (rest : Reaches moves (next reply) g₁ p' g') :
      Reaches moves (ask question next) g p' g'

/-- What a run alone leads to keeps to the protocol as well. -/
theorem Meets.reaches {p p' : Program E R ε α} {g g' : γ} {post : Except ε α → γ → Prop}
    (h : p.Meets P g post) (hrun : Reaches P.Moves p g p' g') : p'.Meets P g' post := by
  induction hrun with
  | refl p g => exact h
  | step first rest ih => exact ih (h.2 _ _ first)

/-- Run a program to its end, with an environment that answers every question. -/
def drive (answer : γ → (question : E) → R question × γ) : Program E R ε α → γ → Except ε α × γ
  | done outcome, g => (outcome, g)
  | ask question next, g => (next (answer g question).1).drive answer (answer g question).2

/-- What is driven is a run alone. -/
theorem drive_reaches {moves : γ → (question : E) → R question → γ → Prop}
    {answer : γ → (question : E) → R question × γ}
    (h : ∀ g question, moves g question (answer g question).1 (answer g question).2)
    (p : Program E R ε α) (g : γ) :
    Reaches moves p g (done (p.drive answer g).1) (p.drive answer g).2 := by
  induction p generalizing g with
  | done outcome => exact .refl _ _
  | ask question next ih => exact .step (h g question) (ih _ _)

/-- A run alone that has ended is as stated. -/
theorem Meets.done {p : Program E R ε α} {g g' : γ} {outcome : Except ε α}
    {post : Except ε α → γ → Prop} (h : p.Meets P g post)
    (hrun : Reaches P.Moves p g (done outcome) g') : post outcome g' :=
  h.reaches hrun

end Program
