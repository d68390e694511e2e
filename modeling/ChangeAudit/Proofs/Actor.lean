import ChangeAudit.Actor
import ChangeAudit.Proofs.Policy.History
import ChangeAudit.Proofs.Text.Lines

/-!
# Asking a session who acts

A session is asked one question at most (`Resolver.Question`): for the attribute that is given, or
else along a key. A key is names with dots between them, and `Question` says so without cutting it:
the first name is the attribute, and the others lead through objects inside its value
(`Json.LeadsTo`), or nowhere. `Resolver.session_looksUp` finds the resolver over a session to answer
what the question tells (`Resolver.Refers`), never with an empty name, and to fail only with the
session. For a policy of a store what cannot be told is nobody, whether the store holds the resolver
itself or makes it of a session and the settings of the policy (`PolicyStore.Asks`).
-/

namespace ChangeAudit

/-! ## Values of a session -/

namespace Json

/-- The path leads from the value to the target, through objects alone. -/
inductive LeadsTo : Json → List String → Json → Prop where
  | here {target : Json} : LeadsTo target [] target
  | member {members : List (String × Json)} {key : String} {value target : Json}
      {path : List String} (there : Entries.get? members key = some value)
      (rest : LeadsTo value path target) : LeadsTo (.object members) (key :: path) target

theorem at?_eq_some_iff {j target : Json} {path : List String} :
    j.at? path = some target ↔ j.LeadsTo path target := by
  induction path generalizing j with
  | nil =>
    constructor
    · rintro ⟨⟩
      exact .here
    · rintro ⟨⟩
      rfl
  | cons key path ih =>
    constructor
    · intro found
      cases j with
      | object members =>
        rw [at?, get?] at found
        cases there : Entries.get? members key with
        | none =>
          rw [there] at found
          nomatch found
        | some value =>
          rw [there] at found
          exact .member there (ih.1 found)
      | _ => nomatch found
    · rintro (_ | ⟨there, rest⟩)
      rw [at?, get?, there]
      exact ih.2 rest

theorem renderInt_ne_nil (i : Int) : renderInt i ≠ [] := by
  unfold renderInt
  split
  · exact List.cons_ne_nil _ _
  · exact Nat.toDigits_ne_nil

theorem renderDigits_ne_nil (ds : List Char) (lead : Int) : Binary64.renderDigits ds lead ≠ [] := by
  unfold Binary64.renderDigits
  split
  · split
    · dsimp only
      split <;> simp
    · exact List.cons_ne_nil _ _
  · exact List.append_ne_nil_of_right_ne_nil _ Nat.toDigits_ne_nil

/-- No value is written as the empty text. -/
theorem text_ne_empty (j : Json) : j.text ≠ "" := by
  rw [text, ne_eq, String.ofList_eq_empty_iff]
  cases j with
  | null => exact List.cons_ne_nil _ _
  | bool b => cases b <;> exact List.cons_ne_nil _ _
  | number n =>
    cases n with
    | int i => exact renderInt_ne_nil i
    | float x => exact List.append_ne_nil_of_right_ne_nil _ (renderDigits_ne_nil _ _)
  | string s => exact List.cons_ne_nil _ _
  | array items => cases items <;> exact List.cons_ne_nil _ _
  | object members => cases members <;> exact List.cons_ne_nil _ _

end Json

namespace Resolver

/-! ## The question and its answer -/

/-- A name that is not set, or set to the empty one. -/
def Unset (name : Option String) : Prop := name = none ∨ name = some ""

/-- What a session is asked for an attribute and a key, set or not: the attribute whose value is
read, and the path to follow inside it. -/
inductive Question : Option String → Option String → Option (String × List String) → Prop where
  | alone {name : String} {key : Option String} (nonempty : name ≠ "") :
      Question (some name) key (some (name, []))
  | along {named : Option String} {root : String} {path : List String} (unset : Unset named)
      (nonempty : ".".intercalate (root :: path) ≠ "")
      (whole : ∀ segment ∈ root :: path, '.' ∉ segment.toList) :
      Question named (some (".".intercalate (root :: path))) (some (root, path))
  | nothing {named key : Option String} (unset : Unset named) (unset' : Unset key) :
      Question named key none

/-- Whom a value names: null and the empty text nobody, any other text the actor that it is, and any
other value the actor of its written text. -/
inductive Names : Json → Option String → Prop where
  | null : Names .null none
  | empty : Names (.string "") none
  | text {s : String} (nonempty : s ≠ "") : Names (.string s) (some s)
  | written {j : Json} (something : j ≠ .null) (textless : ∀ s, j ≠ .string s) : Names j (some j.text)

/-- What a session tells when it is asked. -/
inductive Tells (source : Session) :
    Option (String × List String) → Except Fault (Option String) → Prop where
  | unasked : Tells source none (.ok none)
  | failed {root : String} {path : List String} {fault : Fault}
      (read : source.read root = .error fault) : Tells source (some (root, path)) (.error fault)
  | absent {root : String} {path : List String} (read : source.read root = .ok none) :
      Tells source (some (root, path)) (.ok none)
  | lost {root : String} {path : List String} {value : Json}
      (read : source.read root = .ok (some value)) (nowhere : ∀ target, ¬ value.LeadsTo path target) :
      Tells source (some (root, path)) (.ok none)
  | found {root : String} {path : List String} {value target : Json} {actor : Option String}
      (read : source.read root = .ok (some value)) (leads : value.LeadsTo path target)
      (names : Names target actor) : Tells source (some (root, path)) (.ok actor)

/-- Whom a session names for an attribute and a key. -/
def Refers (source : Session) (named key : Option String) (answer : Except Fault (Option String)) :
    Prop :=
  ∃ q, Question named key q ∧ Tells source q answer

/-! ## Keys -/

/-- Names without dots are the segments of what they make with dots between them. -/
theorem segments_intercalate {names : List String} (some : names ≠ [])
    (whole : ∀ name ∈ names, '.' ∉ name.toList) : segments (".".intercalate names) = names := by
  have cut : Text.pieces '.' (['.'].intercalate (names.map String.toList)) =
      names.map String.toList := by
    apply Text.pieces_intercalate (by simpa using some)
    intro piece member
    obtain ⟨name, listed, rfl⟩ := List.mem_map.1 member
    exact whole name listed
  have dot : ".".toList = ['.'] := rfl
  rw [segments, String.toList_intercalate, dot, cut, List.map_map]
  simp [Function.comp_def]

/-- Every key is made of names without dots, with dots between them. -/
theorem exists_eq_intercalate (key : String) : ∃ root path, key = ".".intercalate (root :: path) ∧
    ∀ segment ∈ root :: path, '.' ∉ segment.toList := by
  have made : ".".intercalate (segments key) = key := by
    apply String.toList_inj.1
    rw [String.toList_intercalate, segments, List.map_map]
    simpa [Function.comp_def] using Text.intercalate_pieces '.' key.toList
  have whole : ∀ segment ∈ segments key, '.' ∉ segment.toList := by
    intro segment member
    obtain ⟨piece, listed, rfl⟩ := List.mem_map.1 member
    simpa using Text.not_mem_of_mem_pieces listed
  cases cut : segments key with
  | nil =>
    rw [segments, List.map_eq_nil_iff] at cut
    exact absurd cut (Text.pieces_ne_nil _ _)
  | cons root path =>
    rw [cut] at made whole
    exact ⟨root, path, made.symm, whole⟩

/-! ## The one question -/

variable {source : Session} {named key : Option String} {q : Option (String × List String)}
  {answer : Except Fault (Option String)}

theorem given_of_unset {name : Option String} (unset : Unset name) : given name = none := by
  rcases unset with rfl | rfl <;> rfl

theorem given_of_ne {name : String} (nonempty : name ≠ "") : given (some name) = some name := by
  simp [given, nonempty]

theorem unset_or_ne (name : Option String) : Unset name ∨ ∃ n, name = some n ∧ n ≠ "" := by
  cases name with
  | none => exact .inl (.inl rfl)
  | some n =>
    by_cases empty : n = ""
    · exact .inl (.inr (congrArg some empty))
    · exact .inr ⟨n, rfl, empty⟩

theorem exists_question (named key : Option String) : ∃ q, Question named key q := by
  rcases unset_or_ne named with unset | ⟨name, rfl, nonempty⟩
  · rcases unset_or_ne key with unset' | ⟨k, rfl, nonempty⟩
    · exact ⟨none, .nothing unset unset'⟩
    · obtain ⟨root, path, rfl, whole⟩ := exists_eq_intercalate k
      exact ⟨some (root, path), .along unset nonempty whole⟩
  · exact ⟨some (name, []), .alone nonempty⟩

/-- What the resolver does with the attribute and the key that it was given. -/
def question? (named key : Option String) : Option (String × List String) :=
  match given named, given key with
  | some name, _ => some (name, [])
  | none, some key =>
    match segments key with
    | [] => none
    | root :: path => some (root, path)
  | none, none => none

theorem Question.eq (asked : Question named key q) : q = question? named key := by
  cases asked with
  | alone nonempty => rw [question?, given_of_ne nonempty]
  | along unset nonempty whole =>
    rw [question?, given_of_unset unset, given_of_ne nonempty]
    simp only [segments_intercalate (List.cons_ne_nil _ _) whole]
  | nothing unset unset' => rw [question?, given_of_unset unset, given_of_unset unset']

theorem question_iff : Question named key q ↔ q = question? named key := by
  constructor
  · exact Question.eq
  · rintro rfl
    obtain ⟨q, asked⟩ := exists_question named key
    exact asked.eq ▸ asked

/-! ## The resolver over a session -/

theorem resolve_session (source : Session) (named key : Option String) :
    (session source named key).resolve =
      match question? named key with
      | some (root, path) => lookup source root path
      | none => .ok none := by
  unfold resolve question?
  dsimp only
  cases given named with
  | some name => rfl
  | none =>
    cases given key with
    | none => rfl
    | some k =>
      dsimp only
      cases segments k <;> rfl

theorem actorOf_names (j : Json) : Names j (actorOf j) := by
  cases j with
  | null => exact .null
  | string s =>
    rw [actorOf]
    split
    · next empty => exact empty ▸ .empty
    · next nonempty => exact .text nonempty
  | _ => exact .written Json.noConfusion fun _ => Json.noConfusion

theorem Names.actorOf_eq {j : Json} {actor : Option String} (names : Names j actor) :
    actorOf j = actor := by
  cases names with
  | null => rfl
  | empty => rfl
  | text nonempty => rw [actorOf, if_neg nonempty]
  | written something textless =>
    cases j with
    | null => exact absurd rfl something
    | string s => exact absurd rfl (textless s)
    | _ => rfl

theorem lookup_tells (source : Session) (root : String) (path : List String) :
    Tells source (some (root, path)) (lookup source root path) := by
  unfold lookup
  split
  · next fault read => exact .failed read
  · next read => exact .absent read
  · next value read =>
    cases there : value.at? path with
    | none =>
      refine .lost read fun target leads => ?_
      rw [Json.at?_eq_some_iff.2 leads] at there
      nomatch there
    | some target => exact .found read (Json.at?_eq_some_iff.1 there) (actorOf_names target)

theorem Tells.eq_lookup {root : String} {path : List String}
    (tells : Tells source (some (root, path)) answer) : answer = lookup source root path := by
  unfold lookup
  cases tells with
  | failed read => rw [read]
  | absent read => rw [read]
  | @lost _ _ value read nowhere =>
    have none : value.at? path = none := by
      apply Option.eq_none_iff_forall_ne_some.2
      intro target there
      exact nowhere target (Json.at?_eq_some_iff.1 there)
    simp only [read, none, Option.bind_none]
  | found read leads names =>
    simp only [read, Json.at?_eq_some_iff.2 leads, Option.bind_some, names.actorOf_eq]

theorem resolve_eq_iff :
    (session source named key).resolve = answer ↔ Tells source (question? named key) answer := by
  rw [resolve_session]
  cases question? named key with
  | none =>
    constructor
    · rintro rfl
      exact .unasked
    · rintro ⟨⟩
      rfl
  | some q =>
    constructor
    · rintro rfl
      exact lookup_tells source q.1 q.2
    · intro tells
      exact tells.eq_lookup.symm

theorem resolve_eq_iff_refers :
    (session source named key).resolve = answer ↔ Refers source named key answer := by
  rw [resolve_eq_iff]
  constructor
  · exact fun tells => ⟨_, question_iff.2 rfl, tells⟩
  · rintro ⟨q, asked, tells⟩
    exact question_iff.1 asked ▸ tells

/-- A key without dots is asked like an attribute of that name. -/
theorem question?_undotted {name : String} (unset : Unset named) (nonempty : name ≠ "")
    (whole : '.' ∉ name.toList) (other : Option String) :
    question? named (some name) = question? (some name) other := by
  have key : ".".intercalate [name] = name := String.intercalate_singleton
  have along : Question named (some (".".intercalate [name])) (some (name, [])) :=
    .along unset (key ▸ nonempty) (by simpa using whole)
  have alone : Question (some name) other (some (name, [])) := .alone nonempty
  rw [key] at along
  rw [← along.eq, ← alone.eq]

theorem Names.ne_empty {j : Json} {actor : Option String} (names : Names j actor) :
    actor ≠ some "" := by
  cases names with
  | null => exact (Option.some_ne_none "").symm
  | empty => exact (Option.some_ne_none "").symm
  | text nonempty => exact fun same => nonempty (Option.some.inj same)
  | written => exact fun same => Json.text_ne_empty j (Option.some.inj same)

theorem resolve_ne_empty : (session source named key).resolve ≠ .ok (some "") := by
  intro answered
  obtain ⟨q, -, tells⟩ := resolve_eq_iff_refers.1 answered
  cases tells with
  | found read leads names => exact names.ne_empty rfl

theorem resolve_eq_error_iff {fault : Fault} :
    (session source named key).resolve = .error fault ↔
      ∃ root path, Question named key (some (root, path)) ∧ source.read root = .error fault := by
  rw [resolve_eq_iff_refers]
  constructor
  · rintro ⟨q, asked, tells⟩
    cases tells with
    | failed read => exact ⟨_, _, asked, read⟩
  · rintro ⟨root, path, asked, read⟩
    exact ⟨_, asked, .failed read⟩

/-- Two sessions that answer the one question alike name the same actor. -/
theorem resolve_congr {other : Session}
    (same : ∀ root path, Question named key (some (root, path)) → other.read root = source.read root) :
    (session other named key).resolve = (session source named key).resolve := by
  rw [resolve_session, resolve_session]
  cases asked : question? named key with
  | none => rfl
  | some q =>
    dsimp only
    rw [lookup, lookup, same q.1 q.2 (question_iff.2 asked.symm)]

theorem orAbsent_of_error {r : Resolver} {fault : Fault} (failed : r.resolve = .error fault) :
    r.orAbsent = none := by
  rw [orAbsent, failed]

end Resolver

/-! ## The policies of a store -/

namespace PolicyStore

/-- A policy that the store gives out: its own, or that of a document it loads. -/
inductive Offers (s : PolicyStore) : LivePolicy → Prop where
  | live : s.Offers s.live
  | loaded {files : FileArea} {source : PolicySource} {live : LivePolicy}
      (made : s.load files source = .ok live) : s.Offers live

/-- How a policy of the store comes to ask a session for an attribute and a key: the resolver over
the session is registered, or the session is, and the policy sets the two. -/
inductive Asks (s : PolicyStore) (p : Policy) (source : Session) : Option String → Option String → Prop
    where
  | registered {named key : Option String} (resolver : s.resolver = some (.session source named key)) :
      Asks s p source named key
  | settings (resolver : s.resolver = none) (session : s.session = some source) :
      Asks s p source p.sessionAttribute p.actorKey

variable {s : PolicyStore} {live : LivePolicy} {source : Session} {named key : Option String}

theorem Consistent.resolver_of_offers (h : s.Consistent) (offers : s.Offers live) :
    live.resolver = chooseResolver s.resolver s.session live.policy := by
  cases offers with
  | live => exact (materialize_eq_ok_iff.1 h).2
  | loaded made =>
    unfold load at made
    split at made
    · exact (materialize_eq_ok_iff.1 made).2
    · nomatch made

/-- Whichever way a policy comes to ask, it gets what the resolver over the session answers. -/
theorem Asks.orAbsent_chooseResolver {p : Policy} (asks : s.Asks p source named key) :
    (chooseResolver s.resolver s.session p).orAbsent =
      (Resolver.session source named key).orAbsent := by
  cases asks with
  | registered resolver => rw [resolver, chooseResolver]
  | settings resolver session =>
    rw [resolver, session, chooseResolver]
    split
    · rfl
    · next silent =>
      -- with neither set there is nobody to ask, and nothing to ask for
      rw [not_or, Option.not_isSome_iff_eq_none, Option.not_isSome_iff_eq_none] at silent
      rw [silent.1, silent.2]
      rfl

theorem Consistent.actor_of_asks (h : s.Consistent) (offers : s.Offers live)
    (asks : s.Asks live.policy source named key) :
    live.actor = (Resolver.session source named key).orAbsent := by
  rw [LivePolicy.actor, h.resolver_of_offers offers]
  exact asks.orAbsent_chooseResolver

end PolicyStore

namespace Resolver

/-- How the actor is found that a session names for an attribute and a key. -/
structure LooksUp (source : Session) (named key : Option String) : Prop where
  one : ∃! q, Question named key q
  refers : ∀ answer, (session source named key).resolve = answer ↔ Refers source named key answer
  undotted : ∀ name, key = some name → name ≠ "" → '.' ∉ name.toList → Unset named → ∀ other,
    (session source named key).resolve = (session source (some name) other).resolve
  nonempty : (session source named key).resolve ≠ .ok (some "")
  fails : ∀ fault, (session source named key).resolve = .error fault ↔
    ∃ root path, Question named key (some (root, path)) ∧ source.read root = .error fault
  read : ∀ other : Session,
    (∀ root path, Question named key (some (root, path)) → other.read root = source.read root) →
      (session other named key).resolve = (session source named key).resolve
  actor : ∀ defaults s ops live, PolicyStore.Started defaults s → (s.run ops).Offers live →
    (s.run ops).Asks live.policy source named key →
      live.actor = (session source named key).orAbsent ∧
        ∀ fault, (session source named key).resolve = .error fault → live.actor = none

/-- **A session is asked for one thing and names whom the question tells.** The attribute decides
alone if it is not empty, and otherwise the key leads from the attribute of its first name through
objects. A key without dots is an attribute, no actor is the empty name, and resolving fails only
with the one reading of the session; then every policy that asks it has nobody act. -/
theorem session_looksUp (source : Session) (named key : Option String) :
    LooksUp source named key where
  one := ⟨_, question_iff.2 rfl, fun _ asked => asked.eq⟩
  refers answer := resolve_eq_iff_refers
  undotted := by
    rintro name rfl nonempty whole unset other
    rw [resolve_session, resolve_session, question?_undotted unset nonempty whole other]
  nonempty := resolve_ne_empty
  fails fault := resolve_eq_error_iff
  read other same := resolve_congr same
  actor := by
    intro defaults s ops live start offers asks
    have asked := (start.consistent.run ops).1.actor_of_asks offers asks
    exact ⟨asked, fun fault failed => asked.trans (orAbsent_of_error failed)⟩

/-- A dot at the front of a key leaves an empty name before it, which is an attribute as well. -/
example : (session ⟨fun root => .ok (if root = "" then some (.object [("id", .nat 42)]) else none)⟩
    (some "") (some ".id")).resolve = .ok (some "42") := rfl

end Resolver

end ChangeAudit
