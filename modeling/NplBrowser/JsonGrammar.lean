import NplBrowser.JsonParser

/-!
# The grammar of JSON, and that the parser has it

A text is a row of tokens (`Tokens`), and a value is derived from tokens (`ValueTokens`): a literal, a string,
elements in brackets or members in braces, of which a later one with the same key replaces an earlier one.
`Json.parse` accepts exactly the texts of a value, and returns that value (`Json.parse_eq_ok_iff`); `Json.read`
exactly the texts that begin with one (`Json.read_eq_iff`).

Both directions go from one token of a value to the state behind it (`Parser.After`): a derivation is a
number of turns of the loop, and a run of the loop that gets to its end has a derivation for each value.
-/

namespace NplBrowser

mutual

inductive ValueTokens : List JsonToken → Json → Prop
  | literal (j : Json) : ValueTokens [.literal j] j
  | string (s : Bytes) : ValueTokens [.string s] (.string s)
  | emptyArray : ValueTokens [.beginArray, .endArray] (.array [])
  | array {as : List JsonToken} {l : List Json} (h : ElementTokens as l) :
    ValueTokens (.beginArray :: (as ++ [.endArray])) (.array l)
  | emptyObject : ValueTokens [.beginObject, .endObject] (.object [])
  | object {as : List JsonToken} {fs : List (Bytes × Json)} (h : MemberTokens as fs) :
    ValueTokens (.beginObject :: (as ++ [.endObject])) (.object (Assoc.insertAll fs []))

inductive ElementTokens : List JsonToken → List Json → Prop
  | one {as : List JsonToken} {j : Json} (h : ValueTokens as j) : ElementTokens as [j]
  | cons {as bs : List JsonToken} {j : Json} {l : List Json} (h : ValueTokens as j) (hl : ElementTokens bs l) :
    ElementTokens (as ++ .valueSeparator :: bs) (j :: l)

inductive MemberTokens : List JsonToken → List (Bytes × Json) → Prop
  | one {as : List JsonToken} {j : Json} (k : Bytes) (h : ValueTokens as j) :
    MemberTokens (.string k :: .nameSeparator :: as) [(k, j)]
  | cons {as bs : List JsonToken} {j : Json} {fs : List (Bytes × Json)} (k : Bytes) (h : ValueTokens as j)
    (hfs : MemberTokens bs fs) :
    MemberTokens (.string k :: .nameSeparator :: (as ++ .valueSeparator :: bs)) ((k, j) :: fs)

end

/-- The text begins with the tokens, and goes on with the rest. -/
inductive Tokens (strtod : Bytes → Double) : Bytes → List JsonToken → Bytes → Prop
  | nil (r : Bytes) : Tokens strtod r [] r
  | cons {text m r : Bytes} {a : JsonToken} {as : List JsonToken} (h : FirstToken strtod text a m)
    (has : Tokens strtod m as r) : Tokens strtod text (a :: as) r

/-- The text begins with a value. -/
def BeginsWith (strtod : Bytes → Double) (text : Bytes) (j : Json) (r : Bytes) : Prop :=
  ∃ t as, dropBom text = some t ∧ Tokens strtod t as r ∧ ValueTokens as j

/-- The text is a value. -/
def JsonText (strtod : Bytes → Double) (text : Bytes) (j : Json) : Prop :=
  ∃ r, BeginsWith strtod text j r ∧ EndText r

variable {strtod : Bytes → Double}

theorem tokens_append {text r : Bytes} {as bs : List JsonToken} : Tokens strtod text (as ++ bs) r ↔
    ∃ m, Tokens strtod text as m ∧ Tokens strtod m bs r := by
  constructor
  · intro h
    induction as generalizing text with
    | nil => exact ⟨text, .nil text, h⟩
    | cons a as ih =>
      cases h with
      | cons ha has =>
        obtain ⟨m, hm, hr⟩ := ih has
        exact ⟨m, .cons ha hm, hr⟩
  · rintro ⟨m, hm, hr⟩
    induction hm with
    | nil => exact hr
    | cons ha _ ih => exact .cons ha (ih hr)

theorem ValueTokens.exists_cons {as : List JsonToken} {j : Json} (h : ValueTokens as j) :
    ∃ a as', as = a :: as' ∧ a ≠ .endArray := by
  cases h <;> exact ⟨_, _, rfl, by simp⟩

theorem ElementTokens.exists_cons {as : List JsonToken} {l : List Json} (h : ElementTokens as l) :
    ∃ a as', as = a :: as' ∧ a ≠ .endArray := by
  cases h with
  | one h => exact h.exists_cons
  | cons h =>
    obtain ⟨a, as, rfl, ha⟩ := h.exists_cons
    exact ⟨a, _, rfl, ha⟩

theorem MemberTokens.exists_cons {as : List JsonToken} {fs : List (Bytes × Json)} (h : MemberTokens as fs) :
    ∃ k as', as = .string k :: as' := by
  cases h <;> exact ⟨_, _, rfl⟩

theorem ValueTokens.ne_nil {as : List JsonToken} {j : Json} (h : ValueTokens as j) : as ≠ [] := by
  cases h <;> simp

namespace Parser

variable {p p' q : Parser} {a : JsonToken} {as bs : List JsonToken} {j : Json} {l es : List Json}
  {fs ms : List (Bytes × Json)} {r : Bytes} {stack : List Container} {states : List Bool}

/-- The token that has been read. -/
def token (p : Parser) : Option JsonToken := Lexer.token (p.lastToken, p.lexer)

/-- The last token is the first of these, and the others follow. -/
def Ahead (strtod : Bytes → Double) (p : Parser) (as : List JsonToken) (r : Bytes) : Prop :=
  p.lexer.text = some p.lexer.input ∧ ∃ a as', as = a :: as' ∧ p.token = some a ∧ Tokens strtod p.lexer.input as' r

/-- The state behind a value `j` in the containers `stack`. -/
structure After (p : Parser) (stack : List Container) (states : List Bool) (j : Json) (r : Bytes) (p' : Parser) :
    Prop where
  dom : p'.dom = ({ p.dom with stack } : Dom).handleValue j
  states : p'.states = states
  text : p'.lexer.text = some p'.lexer.input
  input : p'.lexer.input = r

theorem text_getToken (p : Parser) : (getToken strtod p).lexer.text = some (getToken strtod p).lexer.input :=
  Lexer.text_scan p.lexer

theorem token_getToken_iff (h : p.lexer.text = some p.lexer.input) :
    ((getToken strtod p).token = some a ∧ (getToken strtod p).lexer.input = r) ↔
      FirstToken strtod p.lexer.input a r :=
  Lexer.token_scan_iff h

theorem ahead_getToken_iff (h : p.lexer.text = some p.lexer.input) (hne : as ≠ []) :
    Ahead strtod (getToken strtod p) as r ↔ Tokens strtod p.lexer.input as r := by
  constructor
  · rintro ⟨-, a, as, rfl, ha, has⟩
    exact .cons ((token_getToken_iff h).1 ⟨ha, rfl⟩) has
  · intro htokens
    cases htokens with
    | nil => exact absurd rfl hne
    | cons ha has =>
      obtain ⟨ha, hm⟩ := (token_getToken_iff h).2 ha
      exact ⟨text_getToken p, _, _, rfl, ha, hm ▸ has⟩

/-! ### What a token does -/

/-- The type of a token, if it says which token it is. -/
def typeOf : JsonToken → Option TokenType
  | .beginArray => some .beginArray
  | .endArray => some .endArray
  | .beginObject => some .beginObject
  | .endObject => some .endObject
  | .nameSeparator => some .nameSeparator
  | .valueSeparator => some .valueSeparator
  | .string _ | .literal _ => none

theorem token_iff {type : TokenType} (h : typeOf a = some type) : p.token = some a ↔ p.lastToken = type := by
  unfold token Lexer.token
  cases a <;> cases h <;> cases p.lastToken <;> simp

theorem token_string_iff {s : Bytes} :
    p.token = some (.string s) ↔ p.lastToken = .valueString ∧ p.lexer.tokenBuffer = s := by
  unfold token Lexer.token
  cases p.lastToken <;> simp

theorem parseValue_literal (h : p.token = some (.literal j)) : parseValue strtod p = p.scalar j := by
  unfold token Lexer.token at h
  unfold parseValue
  cases ht : p.lastToken <;> rw [ht] at h <;> dsimp only at h ⊢
  case valueFloat =>
    split_ifs at h ⊢
    cases h
    rfl
  all_goals cases h
  all_goals rfl

theorem parseValue_string {s : Bytes} (h : p.token = some (.string s)) :
    parseValue strtod p = p.scalar (.string s) := by
  obtain ⟨ht, hs⟩ := token_string_iff.1 h
  rw [parseValue, ht, ← hs]

variable (strtod) in
theorem parseValue_beginArray (h : p.token = some .beginArray) : parseValue strtod p =
    let q := getToken strtod { p with dom := p.dom.startArray }
    if q.lastToken = .endArray then ({ q with dom := q.dom.pop }, .evaluation)
    else ({ q with states := true :: q.states }, .value) := by
  rw [parseValue, (token_iff rfl).1 h]

variable (strtod) in
theorem parseValue_beginObject (h : p.token = some .beginObject) : parseValue strtod p =
    let q := getToken strtod { p with dom := p.dom.startObject }
    if q.lastToken = .endObject then ({ q with dom := q.dom.pop }, .evaluation)
    else parseKey strtod q (false :: q.states) := by
  rw [parseValue, (token_iff rfl).1 h]

/-- A value begins with one of four kinds of token. -/
theorem parseValue_cases (strtod : Bytes → Double) (p : Parser) : p.token = some .beginArray ∨
    p.token = some .beginObject ∨ (∃ s, p.token = some (.string s)) ∨ (∃ j, p.token = some (.literal j)) ∨
    ∃ e, parseValue strtod p = (p, .throws e) := by
  unfold token Lexer.token parseValue
  cases p.lastToken with
  | beginArray => exact .inl rfl
  | beginObject => exact .inr (.inl rfl)
  | valueString => exact .inr (.inr (.inl ⟨_, rfl⟩))
  | valueFloat =>
    dsimp only
    split_ifs
    · exact .inr (.inr (.inr (.inl ⟨_, rfl⟩)))
    · exact .inr (.inr (.inr (.inr ⟨_, rfl⟩)))
  | literalTrue | literalFalse | literalNull | valueUnsigned | valueInteger =>
    exact .inr (.inr (.inr (.inl ⟨_, rfl⟩)))
  | uninitialized | endArray | endObject | nameSeparator | valueSeparator | parseError | endOfInput | literalOrValue =>
    exact .inr (.inr (.inr (.inr ⟨_, rfl⟩)))

/-! ### From the grammar to a run -/

/-- Some turns lead from one state to the other. -/
def Leads (strtod : Bytes → Double) (x y : Parser × Next) : Prop := ∃ n, run strtod n x = y

theorem Leads.trans {x y z : Parser × Next} (h : Leads strtod x y) (h' : Leads strtod y z) : Leads strtod x z := by
  obtain ⟨m, rfl⟩ := h
  obtain ⟨n, rfl⟩ := h'
  exact ⟨m + n, run_add m n x⟩

theorem Leads.step (x : Parser × Next) : Leads strtod x (step strtod x) := ⟨1, rfl⟩

theorem leads_scalar (p : Parser) (h : parseValue strtod p = p.scalar j) (ht : p.lexer.text = some p.lexer.input) :
    ∃ p', Leads strtod (p, .value) (p', .evaluation) ∧ After p p.dom.stack p.states j p.lexer.input p' :=
  ⟨{ p with dom := p.dom.handleValue j }, ⟨1, h⟩, rfl, rfl, ht, rfl⟩

theorem ahead_append (h : Ahead strtod p (as ++ bs) r) (hne : as ≠ []) :
    ∃ m, Ahead strtod p as m ∧ Tokens strtod m bs r := by
  obtain ⟨ht, a, cs, hcs, ha, htokens⟩ := h
  obtain ⟨b, as, rfl⟩ := List.exists_cons_of_ne_nil hne
  obtain ⟨rfl, rfl⟩ := List.cons.inj hcs
  obtain ⟨m, hm, hr⟩ := tokens_append.1 htokens
  exact ⟨m, ⟨ht, b, as, rfl, ha, hm⟩, hr⟩

/-- The next token, whatever has become of the value meanwhile. -/
theorem ahead_next {dom : Dom} {states : List Bool} (ht : p.lexer.text = some p.lexer.input)
    (h : Tokens strtod p.lexer.input as r) (hne : as ≠ []) :
    Ahead strtod (getToken strtod { p with dom, states }) as r :=
  (ahead_getToken_iff (p := { p with dom, states }) ht hne).2 h

theorem Ahead.lastToken_ne (h : Ahead strtod p (as ++ bs) r) (has : ∃ a as', as = a :: as' ∧ a ≠ .endArray) :
    p.lastToken ≠ .endArray := by
  obtain ⟨a, as, rfl, ha⟩ := has
  obtain ⟨-, b, bs, hbs, hb, -⟩ := h
  intro hend
  have := (token_iff (a := .endArray) rfl).2 hend
  rw [hb, ← (List.cons.inj hbs).1] at this
  exact ha (Option.some.inj this)

theorem Ahead.token (h : Ahead strtod p (a :: as) r) : p.token = some a := by
  obtain ⟨-, b, bs, hbs, hb, -⟩ := h
  rwa [(List.cons.inj hbs).1]

theorem Ahead.tokens (h : Ahead strtod p (a :: as) r) : Tokens strtod p.lexer.input as r := by
  obtain ⟨-, b, bs, hbs, -, hbs'⟩ := h
  rwa [(List.cons.inj hbs).2]

theorem Ahead.input (h : Ahead strtod p [a] r) : p.lexer.input = r := by
  cases h.tokens
  rfl

variable (strtod) in
theorem parseKey_eq {k : Bytes} (h : p.token = some (.string k)) (states : List Bool) : parseKey strtod p states =
    let q := getToken strtod { p with dom := p.dom.key k }
    if q.lastToken ≠ .nameSeparator then q.unexpected .nameSeparator (lit "object separator")
    else (getToken strtod { q with states }, .value) := by
  obtain ⟨ht, hk⟩ := token_string_iff.1 h
  rw [parseKey, if_neg (not_not.2 ht), hk]

/-- The key and the separator, and the state before the value. -/
theorem parseKey_ahead {k : Bytes} (h : Ahead strtod p (.string k :: .nameSeparator :: a :: as) r)
    (states : List Bool) : ∃ q, parseKey strtod p states = (q, .value) ∧ Ahead strtod q (a :: as) r ∧
      q.states = states ∧ q.dom = p.dom.key k := by
  have hq : Ahead strtod (getToken strtod { p with dom := p.dom.key k }) (.nameSeparator :: a :: as) r :=
    ahead_next h.1 h.tokens (by simp)
  rw [parseKey_eq strtod h.token]
  dsimp only
  rw [if_neg (not_not.2 ((token_iff rfl).1 hq.token))]
  exact ⟨_, rfl, ahead_next hq.1 hq.tokens (by simp), rfl, rfl⟩

variable (strtod) in
theorem evaluate_array (h : p.states = true :: states) : evaluate strtod p =
    let q := getToken strtod p
    if q.lastToken = .valueSeparator then (getToken strtod q, .value)
    else if q.lastToken = .endArray then ({ q with dom := q.dom.pop, states }, .evaluation)
    else q.unexpected .endArray (lit "array") := by
  rw [evaluate, h]

variable (strtod) in
theorem evaluate_object (h : p.states = false :: states) : evaluate strtod p =
    let q := getToken strtod p
    if q.lastToken = .valueSeparator then parseKey strtod (getToken strtod q) q.states
    else if q.lastToken = .endObject then ({ q with dom := q.dom.pop, states }, .evaluation)
    else q.unexpected .endObject (lit "object") := by
  rw [evaluate, h]

theorem insert_key (k : Bytes) (v : Json) (ms : List (Bytes × Json)) :
    Assoc.insert k v (if (Assoc.find? k ms).isSome then ms else Assoc.insert k .null ms) = Assoc.insert k v ms := by
  split_ifs
  · rfl
  · rw [Assoc.insert_insert]

theorem key_eq {d : Dom} {element : Option Bytes} (h : d.stack = .object ms element :: stack) (k : Bytes) :
    ∃ ms', d.key k = { d with stack := .object ms' (some k) :: stack } ∧
      ∀ v, Assoc.insert k v ms' = Assoc.insert k v ms := by
  refine ⟨_, ?_, fun v => insert_key k v ms⟩
  rw [Dom.key, h]
  rfl

theorem pop_array {d d' : Dom} (h : d.stack = .array es :: stack)
    (hd : d' = ({ d with stack := d.stack } : Dom).handleValue j) :
    d'.pop = ({ d with stack } : Dom).handleValue (.array (es ++ [j])) ∧
      d' = { d with stack := .array (es ++ [j]) :: stack } := by
  rw [hd, Dom.handleValue, h]
  exact ⟨rfl, rfl⟩

theorem pop_object {d d' : Dom} {k : Bytes} (h : d.stack = .object ms (some k) :: stack)
    (hd : d' = ({ d with stack := d.stack } : Dom).handleValue j) :
    d'.pop = ({ d with stack } : Dom).handleValue (.object (Assoc.insert k j ms)) ∧
      d' = { d with stack := .object (Assoc.insert k j ms) (some k) :: stack } := by
  rw [hd, Dom.handleValue, h]
  exact ⟨rfl, rfl⟩

mutual

theorem leads_value {p : Parser} {r : Bytes} : ∀ {as : List JsonToken} {j : Json}, ValueTokens as j → Ahead strtod p as r →
    ∃ p', Leads strtod (p, .value) (p', .evaluation) ∧ After p p.dom.stack p.states j r p'
  | _, _, .literal j, h => by
    rw [← h.input]
    exact leads_scalar p (parseValue_literal h.token) h.1
  | _, _, .string s, h => by
    rw [← h.input]
    exact leads_scalar p (parseValue_string h.token) h.1
  | _, _, .emptyArray, h => by
    have hq : Ahead strtod (getToken strtod { p with dom := p.dom.startArray }) [.endArray] r :=
      ahead_next h.1 h.tokens (by simp)
    have hstep := (parseValue_beginArray strtod h.token).trans (if_pos ((token_iff rfl).1 hq.token))
    exact ⟨_, ⟨1, hstep⟩, rfl, rfl, hq.1, hq.input⟩
  | _, _, @ValueTokens.array as l hl, h => by
    have hq : Ahead strtod (getToken strtod { p with dom := p.dom.startArray }) (as ++ [.endArray]) r :=
      ahead_next h.1 h.tokens (by simp)
    have hstep := (parseValue_beginArray strtod h.token).trans (if_neg (hq.lastToken_ne hl.exists_cons))
    set q := getToken strtod { p with dom := p.dom.startArray }
    have hq : Ahead strtod { q with states := true :: q.states } (as ++ [.endArray]) r := hq
    obtain ⟨p', hlead, hdom, hstates, htext, hinput⟩ := leads_elements (show _ = true :: p.states from rfl)
      (show _ = .array [] :: p.dom.stack from rfl) hl hq
    exact ⟨p', .trans ⟨1, hstep⟩ hlead, hdom, hstates, htext, hinput⟩
  | _, _, .emptyObject, h => by
    have hq : Ahead strtod (getToken strtod { p with dom := p.dom.startObject }) [.endObject] r :=
      ahead_next h.1 h.tokens (by simp)
    have hstep := (parseValue_beginObject strtod h.token).trans (if_pos ((token_iff rfl).1 hq.token))
    exact ⟨_, ⟨1, hstep⟩, rfl, rfl, hq.1, hq.input⟩
  | _, _, @ValueTokens.object as fs hfs, h => by
    have hq : Ahead strtod (getToken strtod { p with dom := p.dom.startObject }) (as ++ [.endObject]) r :=
      ahead_next h.1 h.tokens (by simp)
    have hobject : (getToken strtod { p with dom := p.dom.startObject }).lastToken ≠ .endObject := by
      obtain ⟨k, cs, has⟩ := hfs.exists_cons
      rw [has] at hq
      rw [(token_string_iff.1 hq.token).1]
      decide
    have hstep := (parseValue_beginObject strtod h.token).trans (if_neg hobject)
    obtain ⟨p', hlead, hdom, hstates, htext, hinput⟩ :=
      leads_members (show _ = .object [] none :: p.dom.stack from rfl) hfs hq
    exact ⟨p', .trans ⟨1, hstep⟩ hlead, hdom, hstates, htext, hinput⟩

theorem leads_elements {p : Parser} {r : Bytes} {states : List Bool} {stack : List Container} {es : List Json}
    (hstates : p.states = true :: states) (hstack : p.dom.stack = .array es :: stack) :
    ∀ {as : List JsonToken} {l : List Json}, ElementTokens as l → Ahead strtod p (as ++ [.endArray]) r →
      ∃ p', Leads strtod (p, .value) (p', .evaluation) ∧ After p stack states (.array (es ++ l)) r p'
  | _, _, .one hj, h => by
    obtain ⟨m, hm, hend⟩ := ahead_append h hj.ne_nil
    obtain ⟨p₁, h₁, hafter⟩ := leads_value hj hm
    have hq : Ahead strtod (getToken strtod p₁) [.endArray] r :=
      ahead_next hafter.text (by rwa [hafter.input]) (by simp)
    have hend := (token_iff rfl).1 hq.token
    have hstep := (evaluate_array strtod (hafter.states.trans hstates)).trans
      ((if_neg (by rw [hend]; decide)).trans (if_pos hend))
    exact ⟨_, h₁.trans ⟨1, hstep⟩, (pop_array hstack hafter.dom).1, rfl, hq.1, hq.input⟩
  | _, _, @ElementTokens.cons as bs j l hj hl, h => by
    rw [List.append_assoc] at h
    obtain ⟨m, hm, hend⟩ := ahead_append h hj.ne_nil
    obtain ⟨p₁, h₁, hafter⟩ := leads_value hj hm
    have hq : Ahead strtod (getToken strtod p₁) (.valueSeparator :: (bs ++ [.endArray])) r :=
      ahead_next hafter.text (by rwa [hafter.input]) (by simp)
    have hq' : Ahead strtod (getToken strtod (getToken strtod p₁)) (bs ++ [.endArray]) r :=
      ahead_next hq.1 hq.tokens (by simp)
    have hstep := (evaluate_array strtod (hafter.states.trans hstates)).trans
      (if_pos ((token_iff rfl).1 hq.token))
    have hdom := (pop_array hstack hafter.dom).2
    have hstates' : (getToken strtod (getToken strtod p₁)).states = true :: states := hafter.states.trans hstates
    have hstack' : (getToken strtod (getToken strtod p₁)).dom.stack = .array (es ++ [j]) :: stack := congrArg Dom.stack hdom
    obtain ⟨p', hlead, hdom', hstates', htext, hinput⟩ := leads_elements hstates' hstack' hl hq'
    refine ⟨p', (h₁.trans ⟨1, hstep⟩).trans hlead, ?_, hstates', htext, hinput⟩
    rw [hdom', List.append_assoc]
    show ({ p₁.dom with stack } : Dom).handleValue _ = _
    rw [hdom]
    rfl

theorem leads_members {p : Parser} {r : Bytes} {states : List Bool} {stack : List Container} {ms : List (Bytes × Json)}
    {element : Option Bytes} (hstack : p.dom.stack = .object ms element :: stack) :
    ∀ {as : List JsonToken} {fs : List (Bytes × Json)}, MemberTokens as fs → Ahead strtod p (as ++ [.endObject]) r →
      ∃ p', Leads strtod (parseKey strtod p (false :: states)) (p', .evaluation) ∧
        After p stack states (.object (Assoc.insertAll fs ms)) r p'
  | _, _, @MemberTokens.one as j k hj, h => by
    obtain ⟨a, bs, has, -⟩ := hj.exists_cons
    have h : Ahead strtod p (.string k :: .nameSeparator :: a :: (bs ++ [.endObject])) r := by rwa [has] at h
    obtain ⟨q, hkey, hq, hstates, hdom⟩ := parseKey_ahead h (false :: states)
    obtain ⟨ms', hms, hinsert⟩ := key_eq hstack k
    rw [hms] at hdom
    have hq : Ahead strtod q (as ++ [.endObject]) r := by rwa [has]
    obtain ⟨m, hm, hend⟩ := ahead_append hq hj.ne_nil
    obtain ⟨p₁, h₁, hafter⟩ := leads_value hj hm
    have hq₁ : Ahead strtod (getToken strtod p₁) [.endObject] r :=
      ahead_next hafter.text (by rwa [hafter.input]) (by simp)
    have hend := (token_iff rfl).1 hq₁.token
    have hstep := (evaluate_object strtod (hafter.states.trans hstates)).trans
      ((if_neg (by rw [hend]; decide)).trans (if_pos hend))
    have hpop := (pop_object (congrArg Dom.stack hdom) hafter.dom).1
    rw [hdom, hinsert] at hpop
    rw [hkey]
    exact ⟨_, h₁.trans ⟨1, hstep⟩, hpop, rfl, hq₁.1, hq₁.input⟩
  | _, _, @MemberTokens.cons as bs j fs k hj hfs, h => by
    obtain ⟨a, cs, has, -⟩ := hj.exists_cons
    have h : Ahead strtod p (.string k :: .nameSeparator :: a :: (cs ++ .valueSeparator :: bs ++ [.endObject])) r := by
      rwa [has] at h
    obtain ⟨q, hkey, hq, hstates, hdom⟩ := parseKey_ahead h (false :: states)
    obtain ⟨ms', hms, hinsert⟩ := key_eq hstack k
    rw [hms] at hdom
    have hq : Ahead strtod q (as ++ .valueSeparator :: (bs ++ [.endObject])) r := by
      rw [List.append_assoc] at hq
      rwa [has]
    obtain ⟨m, hm, hend⟩ := ahead_append hq hj.ne_nil
    obtain ⟨p₁, h₁, hafter⟩ := leads_value hj hm
    have hq₁ : Ahead strtod (getToken strtod p₁) (.valueSeparator :: (bs ++ [.endObject])) r :=
      ahead_next hafter.text (by rwa [hafter.input]) (by simp)
    have hq₂ : Ahead strtod (getToken strtod (getToken strtod p₁)) (bs ++ [.endObject]) r :=
      ahead_next hq₁.1 hq₁.tokens (by simp)
    have hstates₁ := hafter.states.trans hstates
    have hstep := (evaluate_object strtod hstates₁).trans (if_pos ((token_iff rfl).1 hq₁.token))
    have hdom₁ := (pop_object (congrArg Dom.stack hdom) hafter.dom).2
    rw [hdom, hinsert] at hdom₁
    have hstack₁ : (getToken strtod (getToken strtod p₁)).dom.stack = .object (Assoc.insert k j ms) (some k) :: stack :=
      congrArg Dom.stack hdom₁
    obtain ⟨p', hlead, hdom', hstates', htext, hinput⟩ := leads_members hstack₁ hfs hq₂
    have hstates₂ : (getToken strtod p₁).states = false :: states := hstates₁
    rw [← hstates₂] at hlead
    rw [hkey]
    refine ⟨p', h₁.trans (.trans ⟨1, hstep⟩ hlead), ?_, hstates', htext, hinput⟩
    rw [hdom']
    show ({ p₁.dom with stack } : Dom).handleValue _ = _
    rw [hdom₁]
    rfl

end

/-! ### From a run to the grammar -/

/-- The loop gets to its end without an exception. -/
def Finishes (strtod : Bytes → Double) (n : Nat) (x : Parser × Next) : Prop := (run strtod n x).2 = .done

theorem not_finishes_throws (n : Nat) (p : Parser) (e : ParseException) : ¬ Finishes strtod n (p, .throws e) := by
  rw [Finishes, run_of_isFinal rfl]
  nofun

theorem Finishes.succ {n : Nat} {x : Parser × Next} (h : Finishes strtod n x) (hx : x.2 ≠ .done) :
    ∃ k, n = k + 1 ∧ Finishes strtod k (step strtod x) := by
  cases n with
  | zero => exact absurd h hx
  | succ k => exact ⟨k, rfl, h⟩

/-- What comes after a complete value. -/
theorem Finishes.evaluation {m n : Nat} {x : Parser × Next} (h : Finishes strtod n x)
    (hm : run strtod m x = (p, .evaluation)) : ∃ k, n = m + (k + 1) ∧ Finishes strtod k (evaluate strtod p) := by
  rcases Nat.lt_or_ge m n with hlt | hge
  · obtain ⟨k, rfl⟩ := Nat.exists_eq_add_of_lt hlt
    refine ⟨k, rfl, ?_⟩
    rw [Finishes, Nat.add_assoc, run_add, hm] at h
    exact h
  · obtain ⟨k, rfl⟩ := Nat.exists_eq_add_of_le hge
    rw [run_add, run_of_isFinal (by rw [h]; rfl)] at hm
    rw [Finishes, hm] at h
    cases h

theorem ahead_cons (ht : p.lexer.text = some p.lexer.input) (ha : p.token = some a) (h : Tokens strtod p.lexer.input as r) :
    Ahead strtod p (a :: as) r :=
  ⟨ht, a, as, rfl, ha, h⟩

/-- A token that has been read was the next one. -/
theorem tokens_getToken {dom : Dom} {states : List Bool} (ht : p.lexer.text = some p.lexer.input)
    (ha : (getToken strtod { p with dom, states }).token = some a)
    (h : Tokens strtod (getToken strtod { p with dom, states }).lexer.input as r) :
    Tokens strtod p.lexer.input (a :: as) r :=
  .cons ((token_getToken_iff (p := { p with dom, states }) ht).1 ⟨ha, rfl⟩) h

/-- Behind the value `j`, of which the grammar has the tokens `as` with what ends its container. -/
structure Reads (strtod : Bytes → Double) (p : Parser) (as : List JsonToken) (x : Parser × Next) (stack : List Container)
    (states : List Bool) (j : Json) (m : Nat) (r : Bytes) (p' : Parser) : Prop where
  ahead : Ahead strtod p as r
  run : run strtod m x = (p', .evaluation)
  after : After p stack states j r p'

/-- A value that is read in `n` turns at most is derived. -/
def ValueSound (strtod : Bytes → Double) (n : Nat) : Prop :=
  ∀ p : Parser, p.lexer.text = some p.lexer.input → Finishes strtod n (p, .value) →
    ∃ as j m r p', ValueTokens as j ∧ Reads strtod p as (p, .value) p.dom.stack p.states j m r p'

def ElementsSound (strtod : Bytes → Double) (n : Nat) : Prop :=
  ∀ (p : Parser) states stack es, p.lexer.text = some p.lexer.input → p.states = true :: states →
    p.dom.stack = .array es :: stack → Finishes strtod n (p, .value) →
    ∃ as l m r p', ElementTokens as l ∧
      Reads strtod p (as ++ [.endArray]) (p, .value) stack states (.array (es ++ l)) m r p'

def MembersSound (strtod : Bytes → Double) (n : Nat) : Prop :=
  ∀ (p : Parser) states stack ms element, p.lexer.text = some p.lexer.input →
    p.dom.stack = .object ms element :: stack → Finishes strtod n (parseKey strtod p (false :: states)) →
    ∃ as fs m r p', MemberTokens as fs ∧ Reads strtod p (as ++ [.endObject]) (parseKey strtod p (false :: states)) stack
      states (.object (Assoc.insertAll fs ms)) m r p'

theorem valueSound {n : Nat} (hl : ∀ k < n, ElementsSound strtod k) (hfs : ∀ k < n, MembersSound strtod k) :
    ValueSound strtod n := by
  intro p ht h
  obtain ⟨k, rfl, h⟩ := h.succ (by nofun)
  have h : Finishes strtod k (parseValue strtod p) := h
  have scalar : ∀ {a j}, p.token = some a → ValueTokens [a] j → parseValue strtod p = p.scalar j →
      ∃ as j m r p', ValueTokens as j ∧ Reads strtod p as (p, .value) p.dom.stack p.states j m r p' :=
    fun {a j} ha hj hp => ⟨[a], j, 1, p.lexer.input, _, hj, ahead_cons ht ha (.nil _), hp, rfl, rfl, ht, rfl⟩
  rcases parseValue_cases strtod p with ha | ha | ⟨s, ha⟩ | ⟨j, ha⟩ | ⟨e, he⟩
  · have hstep := parseValue_beginArray strtod ha
    set q := getToken strtod { p with dom := p.dom.startArray }
    have htq : q.lexer.text = some q.lexer.input := text_getToken _
    by_cases hend : q.lastToken = .endArray
    · have hstep := hstep.trans (if_pos hend)
      have htokens : Tokens strtod p.lexer.input [.endArray] q.lexer.input :=
        tokens_getToken ht ((token_iff rfl).2 hend) (.nil _)
      exact ⟨_, _, 1, q.lexer.input, _, .emptyArray, ahead_cons ht ha htokens, hstep, rfl, rfl, htq, rfl⟩
    · have hstep := hstep.trans (if_neg hend)
      rw [hstep] at h
      obtain ⟨as, l, m, r, p', hl, hahead, hrun, hafter⟩ :=
        hl k (by omega) { q with states := true :: q.states } p.states p.dom.stack [] htq rfl rfl h
      have htokens : Tokens strtod p.lexer.input (as ++ [.endArray]) r :=
        (ahead_getToken_iff (p := { p with dom := p.dom.startArray }) ht (by simp)).1 hahead
      refine ⟨_, _, m + 1, r, p', .array hl, ahead_cons ht ha htokens, ?_, hafter.dom, hafter.states, hafter.text, hafter.input⟩
      rw [run, step, hstep, hrun]
  · have hstep := parseValue_beginObject strtod ha
    set q := getToken strtod { p with dom := p.dom.startObject }
    have htq : q.lexer.text = some q.lexer.input := text_getToken _
    by_cases hend : q.lastToken = .endObject
    · have hstep := hstep.trans (if_pos hend)
      have htokens : Tokens strtod p.lexer.input [.endObject] q.lexer.input :=
        tokens_getToken ht ((token_iff rfl).2 hend) (.nil _)
      exact ⟨_, _, 1, q.lexer.input, _, .emptyObject, ahead_cons ht ha htokens, hstep, rfl, rfl, htq, rfl⟩
    · have hstep := hstep.trans (if_neg hend)
      rw [hstep] at h
      obtain ⟨as, fs, m, r, p', hfs, hahead, hrun, hafter⟩ :=
        hfs k (by omega) q p.states p.dom.stack [] none htq rfl h
      have htokens : Tokens strtod p.lexer.input (as ++ [.endObject]) r :=
        (ahead_getToken_iff (p := { p with dom := p.dom.startObject }) ht (by simp)).1 hahead
      refine ⟨_, _, m + 1, r, p', .object hfs, ahead_cons ht ha htokens, ?_, hafter.dom, hafter.states, hafter.text, hafter.input⟩
      rw [run, step, hstep]
      exact hrun
  · exact scalar ha (.string s) (parseValue_string ha)
  · exact scalar ha (.literal j) (parseValue_literal ha)
  · rw [he] at h
    exact absurd h (not_finishes_throws k p e)

theorem ahead_concat {m : Bytes} (h : Ahead strtod p as m) (h' : Tokens strtod m bs r) : Ahead strtod p (as ++ bs) r := by
  obtain ⟨ht, a, as, rfl, ha, htokens⟩ := h
  exact ⟨ht, a, as ++ bs, rfl, ha, tokens_append.2 ⟨m, htokens, h'⟩⟩

theorem elementsSound {n : Nat} (hj : ValueSound strtod n) (hl : ∀ k < n, ElementsSound strtod k) :
    ElementsSound strtod n := by
  intro p states stack es ht hstates hstack hfinishes
  obtain ⟨as, j, m, r, p₁, hvalue, hahead, hrun, hafter⟩ := hj p ht hfinishes
  obtain ⟨k, hn, h⟩ := hfinishes.evaluation hrun
  have hstep := evaluate_array strtod (hafter.states.trans hstates)
  set q := getToken strtod p₁
  have htq : q.lexer.text = some q.lexer.input := text_getToken _
  by_cases hcomma : q.lastToken = .valueSeparator
  · have hstep := hstep.trans (if_pos hcomma)
    rw [hstep] at h
    have hdom := (pop_array hstack hafter.dom).2
    have hstates' : (getToken strtod q).states = true :: states := hafter.states.trans hstates
    have hstack' : (getToken strtod q).dom.stack = .array (es ++ [j]) :: stack := congrArg Dom.stack hdom
    obtain ⟨bs, l, m', r', p', hl, hahead', hrun', hafter'⟩ :=
      hl k (by omega) (getToken strtod q) states stack _ (text_getToken _) hstates' hstack' h
    have htokens : Tokens strtod p₁.lexer.input (.valueSeparator :: (bs ++ [.endArray])) r' :=
      tokens_getToken hafter.text ((token_iff rfl).2 hcomma) ((ahead_getToken_iff htq (by simp)).1 hahead')
    rw [hafter.input] at htokens
    refine ⟨as ++ .valueSeparator :: bs, j :: l, m + (1 + m'), r', p', .cons hvalue hl, ?_, ?_, ?_⟩
    · rw [List.append_assoc]
      exact ahead_concat hahead htokens
    · rw [run_add, run_add, hrun]
      show run strtod m' (evaluate strtod p₁) = _
      rw [hstep, hrun']
    · refine ⟨?_, hafter'.states, hafter'.text, hafter'.input⟩
      rw [hafter'.dom, List.append_assoc]
      show ({ p₁.dom with stack } : Dom).handleValue _ = _
      rw [hdom]
      rfl
  · have hstep := hstep.trans (if_neg hcomma)
    by_cases hend : q.lastToken = .endArray
    · have hstep := hstep.trans (if_pos hend)
      have htokens : Tokens strtod p₁.lexer.input [.endArray] q.lexer.input :=
        tokens_getToken hafter.text ((token_iff rfl).2 hend) (.nil _)
      rw [hafter.input] at htokens
      refine ⟨as, [j], m + 1, q.lexer.input, { q with dom := q.dom.pop, states }, .one hvalue,
        ahead_concat hahead htokens, ?_, (pop_array hstack hafter.dom).1, rfl, htq, rfl⟩
      rw [run_add, hrun]
      exact hstep
    · rw [hstep.trans (if_neg hend)] at h
      exact absurd h (not_finishes_throws k _ _)

/-- A key that is no error, and the state before its value. -/
theorem Finishes.key {n : Nat} (ht : p.lexer.text = some p.lexer.input) (h : Finishes strtod n (parseKey strtod p states)) :
    ∃ k q, parseKey strtod p states = (q, .value) ∧ q.lexer.text = some q.lexer.input ∧ q.states = states ∧
      q.dom = p.dom.key k ∧
      ∀ {as r}, Ahead strtod q as r → as ≠ [] → Ahead strtod p (.string k :: .nameSeparator :: as) r := by
  by_cases hkey : p.lastToken = .valueString
  · have ha : p.token = some (.string p.lexer.tokenBuffer) := token_string_iff.2 ⟨hkey, rfl⟩
    have hparse := parseKey_eq strtod ha states
    set q := getToken strtod { p with dom := p.dom.key p.lexer.tokenBuffer }
    have htq : q.lexer.text = some q.lexer.input := text_getToken _
    by_cases hseparator : q.lastToken = .nameSeparator
    · refine ⟨_, _, hparse.trans (if_neg (not_not.2 hseparator)), text_getToken _, rfl, rfl, fun {as r} has hne => ?_⟩
      refine ahead_cons ht ha (tokens_getToken ht ((token_iff rfl).2 hseparator) ?_)
      exact (ahead_getToken_iff (p := { q with states }) htq hne).1 has
    · rw [hparse.trans (if_pos hseparator)] at h
      exact absurd h (not_finishes_throws n _ _)
  · rw [parseKey, if_pos hkey] at h
    exact absurd h (not_finishes_throws n _ _)

theorem membersSound {n : Nat} (hj : ValueSound strtod n) (hfs : ∀ k < n, MembersSound strtod k) :
    MembersSound strtod n := by
  intro p states stack ms element ht hstack hfinishes
  obtain ⟨key, q, hkey, htq, hstates, hdom, hahead⟩ := hfinishes.key ht
  obtain ⟨ms', hms, hinsert⟩ := key_eq hstack key
  rw [hms] at hdom
  rw [hkey] at hfinishes ⊢
  obtain ⟨as, j, m, r, p₁, hvalue, hahead', hrun, hafter⟩ := hj q htq hfinishes
  obtain ⟨k, hn, h⟩ := hfinishes.evaluation hrun
  have hstates₁ := hafter.states.trans hstates
  have hstep := evaluate_object strtod hstates₁
  obtain ⟨hpop, hdom₁⟩ := pop_object (congrArg Dom.stack hdom) hafter.dom
  rw [hdom, hinsert] at hpop hdom₁
  set q₁ := getToken strtod p₁
  have htq₁ : q₁.lexer.text = some q₁.lexer.input := text_getToken _
  by_cases hcomma : q₁.lastToken = .valueSeparator
  · have hstep := hstep.trans (if_pos hcomma)
    have hstates₂ : q₁.states = false :: states := hstates₁
    rw [hstates₂] at hstep
    rw [hstep] at h
    have hstack₁ : (getToken strtod q₁).dom.stack = .object (Assoc.insert key j ms) (some key) :: stack :=
      congrArg Dom.stack hdom₁
    obtain ⟨bs, fs, m', r', p', hfs, hahead₁, hrun', hafter'⟩ :=
      hfs k (by omega) (getToken strtod q₁) states stack _ _ (text_getToken _) hstack₁ h
    have htokens : Tokens strtod p₁.lexer.input (.valueSeparator :: (bs ++ [.endObject])) r' :=
      tokens_getToken hafter.text ((token_iff rfl).2 hcomma) ((ahead_getToken_iff htq₁ (by simp)).1 hahead₁)
    rw [hafter.input] at htokens
    have hall := ahead_concat hahead' htokens
    refine ⟨_, (key, j) :: fs, m + (1 + m'), r', p', .cons key hvalue hfs, ?_, ?_, ?_⟩
    · have := hahead hall (by simp)
      simpa using this
    · rw [run_add, run_add, hrun]
      show run strtod m' (evaluate strtod p₁) = _
      rw [hstep, hrun']
    · refine ⟨?_, hafter'.states, hafter'.text, hafter'.input⟩
      rw [hafter'.dom]
      show ({ p₁.dom with stack } : Dom).handleValue _ = _
      rw [hdom₁]
      rfl
  · have hstep := hstep.trans (if_neg hcomma)
    by_cases hend : q₁.lastToken = .endObject
    · have hstep := hstep.trans (if_pos hend)
      have htokens : Tokens strtod p₁.lexer.input [.endObject] q₁.lexer.input :=
        tokens_getToken hafter.text ((token_iff rfl).2 hend) (.nil _)
      rw [hafter.input] at htokens
      have hall := ahead_concat hahead' htokens
      refine ⟨_, [(key, j)], m + 1, q₁.lexer.input, { q₁ with dom := q₁.dom.pop, states }, .one key hvalue,
        hahead hall (by simp), ?_, hpop, rfl, htq₁, rfl⟩
      rw [run_add, hrun]
      exact hstep
    · rw [hstep.trans (if_neg hend)] at h
      exact absurd h (not_finishes_throws k _ _)

theorem sound (strtod : Bytes → Double) (n : Nat) :
    ValueSound strtod n ∧ ElementsSound strtod n ∧ MembersSound strtod n := by
  induction n using Nat.strong_induction_on with
  | _ n ih =>
    have hvalue := valueSound (fun k hk => (ih k hk).2.1) fun k hk => (ih k hk).2.2
    exact ⟨hvalue, elementsSound hvalue fun k hk => (ih k hk).2.1, membersSound hvalue fun k hk => (ih k hk).2.2⟩

/-! ### The whole text -/

variable {text : Bytes} {root : Json}

theorem ahead_ofText_iff (hne : as ≠ []) :
    Ahead strtod (ofText strtod text root) as r ↔ ∃ t, dropBom text = some t ∧ Tokens strtod t as r := by
  have htext : ({ input := text } : Lexer).text = dropBom text := rfl
  have hread : (ofText strtod text root).lexer.text = some (ofText strtod text root).lexer.input := Lexer.text_scan _
  constructor
  · rintro ⟨-, a, as, rfl, ha, has⟩
    cases hbom : dropBom text with
    | none =>
      have hnone := Lexer.token_error (Lexer.scan_error strtod (htext.trans hbom))
      cases hnone.symm.trans ha
    | some t => exact ⟨t, rfl, .cons ((Lexer.token_scan_iff (htext.trans hbom)).1 ⟨ha, rfl⟩) has⟩
  · rintro ⟨t, hbom, htokens⟩
    cases htokens with
    | nil => exact absurd rfl hne
    | cons ha has =>
      obtain ⟨ha, hm⟩ := (Lexer.token_scan_iff (htext.trans hbom)).2 ha
      exact ⟨hread, _, _, rfl, ha, by rwa [← hm] at has⟩

/-- Behind a complete value there is nothing to evaluate. -/
theorem saxParseInternal_of_run {m : Nat} (hrun : run strtod m (p, .value) = (q, .evaluation)) (hstates : q.states = []) :
    saxParseInternal strtod p = (q, .done) := by
  have hdone : run strtod (m + 1) (p, .value) = (q, .done) := by
    rw [run_add, hrun]
    show evaluate strtod q = _
    rw [evaluate, hstates]
  rw [saxParseInternal_eq (by rw [hdone]; rfl), hdone]

theorem saxParseInternal_complete (hstates : p.states = []) (hahead : Ahead strtod p as r) (hvalue : ValueTokens as j) :
    ∃ q, saxParseInternal strtod p = (q, .done) ∧ After p p.dom.stack p.states j r q := by
  obtain ⟨q, ⟨n, hn⟩, hafter⟩ := leads_value hvalue hahead
  exact ⟨q, saxParseInternal_of_run hn (hafter.states.trans hstates), hafter⟩

theorem saxParseInternal_sound (ht : p.lexer.text = some p.lexer.input) (hstates : p.states = [])
    (h : saxParseInternal strtod p = (q, .done)) :
    ∃ as j r, Ahead strtod p as r ∧ ValueTokens as j ∧ After p p.dom.stack p.states j r q := by
  have hfinishes : Finishes strtod (2 * p.lexer.input.length + 4) (p, .value) := congrArg Prod.snd h
  obtain ⟨as, j, m, r, p', hvalue, hahead, hrun, hafter⟩ := (sound strtod _).1 p ht hfinishes
  have := saxParseInternal_of_run hrun (hafter.states.trans hstates)
  rw [h] at this
  cases this
  exact ⟨as, j, r, hahead, hvalue, hafter⟩

theorem parse_of_done {strict : Bool} (h : saxParseInternal strtod (ofText strtod text root) = (q, .done)) :
    parse strtod strict text root = if strict ∧ (getToken strtod q).lastToken ≠ .endOfInput then
      (q.dom.value, some ((getToken strtod q).syntaxError .endOfInput (lit "value"))) else (q.dom.value, none) := by
  rw [parse, h]

theorem parse_of_throws {strict : Bool} {e : ParseException}
    (h : saxParseInternal strtod (ofText strtod text root) = (q, .throws e)) :
    parse strtod strict text root = (q.dom.value, some e) := by
  rw [parse, h]

/-- The parser succeeds exactly at a value, if strict at a value that is the whole text. -/
theorem parse_eq_iff {strict : Bool} : parse strtod strict text root = (j, none) ↔
    ∃ r, BeginsWith strtod text j r ∧ (strict = true → EndText r) := by
  have ht : (ofText strtod text root).lexer.text = some (ofText strtod text root).lexer.input := Lexer.text_scan _
  -- the end of the text, seen by the next token
  have hend : ∀ {q r}, q.lexer.text = some q.lexer.input → q.lexer.input = r →
      ((getToken strtod q).lastToken = .endOfInput ↔ EndText r) := fun hq hr => hr ▸ Lexer.scan_end_iff hq
  constructor
  · intro h
    rcases hsax : saxParseInternal strtod (ofText strtod text root) with ⟨q, next⟩
    have hfinal := saxParseInternal_isFinal strtod (ofText strtod text root)
    rw [hsax] at hfinal
    cases next with
    | value => cases hfinal
    | evaluation => cases hfinal
    | throws e =>
      rw [parse_of_throws hsax] at h
      cases h
    | done =>
      obtain ⟨as, j', r, hahead, hvalue, hafter⟩ := saxParseInternal_sound ht rfl hsax
      obtain ⟨t, hbom, htokens⟩ := (ahead_ofText_iff hvalue.ne_nil).1 hahead
      rw [parse_of_done hsax] at h
      split_ifs at h with hstrict
      · cases h
      · have hdom : q.dom.value = j' := by
          rw [hafter.dom]
          rfl
        have hj : j' = j := hdom.symm.trans (congrArg Prod.fst h)
        rw [← hj]
        refine ⟨r, ⟨t, as, hbom, htokens, hvalue⟩, fun hs => (hend hafter.text hafter.input).1 ?_⟩
        exact not_not.1 fun hne => hstrict ⟨hs, hne⟩
  · rintro ⟨r, ⟨t, as, hbom, htokens, hvalue⟩, hstrict⟩
    obtain ⟨q, hsax, hafter⟩ := saxParseInternal_complete rfl ((ahead_ofText_iff hvalue.ne_nil).2 ⟨t, hbom, htokens⟩) hvalue
    have hdom : q.dom.value = j := by
      rw [hafter.dom]
      rfl
    rw [parse_of_done hsax, if_neg fun h => h.2 ((hend hafter.text hafter.input).2 (hstrict h.1)), hdom]

end Parser

theorem Json.parse_ok_iff {text : Bytes} {j : Json} :
    Json.parse strtod text = .ok j ↔ Parser.parse strtod true text .null = (j, none) := by
  rw [Json.parse]
  rcases Parser.parse strtod true text .null with ⟨j', _ | e⟩ <;> simp

/-- `json::parse` accepts the texts that are a value, and makes that value of them. -/
theorem Json.parse_eq_ok_iff {text : Bytes} {j : Json} : Json.parse strtod text = .ok j ↔ JsonText strtod text j := by
  rw [Json.parse_ok_iff, Parser.parse_eq_iff]
  exact exists_congr fun r => and_congr_right fun _ => ⟨fun h => h rfl, fun h _ => h⟩

/-- `>>` reads the value that the text begins with. -/
theorem Json.read_eq_iff {text : Bytes} {j root : Json} :
    Json.read strtod text root = (j, none) ↔ ∃ r, BeginsWith strtod text j r := by
  rw [Json.read, Parser.parse_eq_iff]
  exact exists_congr fun r => ⟨fun h => h.1, fun h => ⟨h, nofun⟩⟩

end NplBrowser
