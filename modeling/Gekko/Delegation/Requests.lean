import Gekko.Lib.Form


/-! # `Gekko.Delegation.Requests` — the four exchange clients, as Keycloak reads them

Each of the four services that exchange tokens has a client of its own, in its own language, with its
own writer of forms: `URLSearchParams`, Spring's converter, `url.Values`, and `serde_urlencoded` behind
`reqwest`. They escape different bytes, and Go sorts by the names. The token that goes into a form has
come in with a request.

A `TokenEndpoint` is anything that goes by the parameters of a form, in whatever order they are;
`readExchange` is how RFC 8693 has it done. All four forms are read as the request that was meant, and
nothing in a token, an audience, a scope or a secret can add a parameter or change another one.
-/

namespace Gekko.Delegation

def grantType : String := "urn:ietf:params:oauth:grant-type:token-exchange"

def tokenType : String := "urn:ietf:params:oauth:token-type:access_token"

/-- A request to exchange a token. -/
structure ExchangeRequest where
  clientId : String
  clientSecret : String
  subjectToken : String
  audience : String
  scope : String
  deriving DecidableEq, Repr

/-- The parameters, in the order in which three of the clients write them. -/
def ExchangeRequest.params (r : ExchangeRequest) : List (String × String) :=
  [("grant_type", grantType), ("subject_token", r.subjectToken), ("subject_token_type", tokenType),
   ("audience", r.audience), ("scope", r.scope), ("client_id", r.clientId),
   ("client_secret", r.clientSecret)]

/-! ## The clients -/

/-- The body of `requestTokenExchange`. -/
def requestTokenExchange (clientSecret subjectToken audience scope : String) : List UInt8 :=
  Form.serialize Form.urlencoded
    (ExchangeRequest.params ⟨"frontend", clientSecret, subjectToken, audience, scope⟩)

/-- The body of `requestExchange`, from the bean's fields and the arguments. -/
def requestExchange (clientId clientSecret subjectToken audience scope : String) : List UInt8 :=
  Form.serialize Form.urlencoded
    (ExchangeRequest.params ⟨clientId, clientSecret, subjectToken, audience, scope⟩)

/-- The body of Warehouse Service's `exchange`. -/
def exchangeBody (clientId clientSecret subjectToken audience scope : String) : List UInt8 :=
  Form.serialize Form.urlencoded
    (ExchangeRequest.params ⟨clientId, clientSecret, subjectToken, audience, scope⟩)

/-- `Values.Set`, for a map in which each name has one value. -/
def setValue (form : List (String × String)) (p : String × String) : List (String × String) :=
  form.filter (fun q => q.1 ≠ p.1) ++ [p]

/-- `Values.Encode`. -/
def encodeValues (form : List (String × String)) : List UInt8 :=
  Form.serialize Form.queryEscaped (form.mergeSort fun p q => decide (p.1 ≤ q.1))

/-- The body of Inventory Service's `Exchange`. -/
def exchangeValues (clientID clientSecret subjectToken audience scope : String) : List UInt8 :=
  encodeValues ((ExchangeRequest.params
    ⟨clientID, clientSecret, subjectToken, audience, scope⟩).foldl setValue [])

/-! ## The token endpoint -/

/-- The token endpoint, as the clients rely on it: it goes by the parameters of the form. -/
structure TokenEndpoint where
  read : List UInt8 → Option ExchangeRequest
  read_of_perm : ∀ {body : List UInt8} {r : ExchangeRequest}, (Form.parse body).Perm r.params →
      read body = some r

/-- The request that a body stands for. No parameter may be there twice. -/
def readExchange (body : List UInt8) : Option ExchangeRequest :=
  let form := Form.parse body
  if (form.map (·.1)).Nodup ∧ Form.value? "grant_type" form = some grantType ∧
      Form.value? "subject_token_type" form = some tokenType then
    match Form.value? "client_id" form, Form.value? "client_secret" form, Form.value? "subject_token" form,
      Form.value? "audience" form, Form.value? "scope" form with
    | some clientId, some clientSecret, some subjectToken, some audience, some scope =>
        some ⟨clientId, clientSecret, subjectToken, audience, scope⟩
    | _, _, _, _, _ => none
  else none

section Reading

variable {r : ExchangeRequest} {body : List UInt8}

theorem params_nodup (r : ExchangeRequest) : (r.params.map (·.1)).Nodup := by
  show ["grant_type", "subject_token", "subject_token_type", "audience", "scope",
        "client_id", "client_secret"].Nodup
  decide +kernel

/-- A form with these parameters, in any order. -/
theorem readExchange_of_perm (h : (Form.parse body).Perm r.params) : readExchange body = some r := by
  have hvalue : ∀ name, Form.value? name (Form.parse body) = Form.value? name r.params :=
    Form.value?_of_perm h (params_nodup r)
  have hnodup : ((Form.parse body).map (·.1)).Nodup := (h.map _).nodup_iff.mpr (params_nodup r)
  unfold readExchange
  simp only [hvalue]
  rw [if_pos ⟨hnodup, rfl, rfl⟩]
  rfl

/-- An endpoint that insists on all of it. -/
def strictEndpoint : TokenEndpoint := ⟨readExchange, readExchange_of_perm⟩

variable {endpoint : TokenEndpoint}

theorem read_urlencoded (r : ExchangeRequest) :
    endpoint.read (Form.serialize Form.urlencoded r.params) = some r := by
  apply endpoint.read_of_perm
  rw [Form.parse_serialize Form.urlencoded_clean]

/-- Setting each name once writes them down in turn. -/
theorem foldl_setValue (ps form : List (String × String)) (h : ((form ++ ps).map (·.1)).Nodup) :
    ps.foldl setValue form = form ++ ps := by
  induction ps generalizing form with
  | nil => exact (List.append_nil form).symm
  | cons p ps ih =>
      have hset : setValue form p = form ++ [p] := by
        unfold setValue
        rw [List.filter_eq_self.mpr]
        intro q hq
        refine decide_eq_true fun hname => ?_
        rw [List.map_append, List.map_cons] at h
        exact (List.nodup_append.mp h).2.2 q.1 (List.mem_map.mpr ⟨q, hq, rfl⟩) p.1 List.mem_cons_self hname
      rw [List.foldl_cons, hset, ih _ (by rw [List.append_assoc]; exact h), List.append_assoc]
      rfl

theorem read_encodeValues (r : ExchangeRequest) :
    endpoint.read (encodeValues (r.params.foldl setValue [])) = some r := by
  apply endpoint.read_of_perm
  unfold encodeValues
  rw [Form.parse_serialize Form.queryEscaped_clean, foldl_setValue r.params [] (params_nodup r)]
  exact List.mergeSort_perm _ _

/-- **The four clients ask for the same thing**, whatever the texts are that they put into it. -/
theorem readExchange_clients (endpoint : TokenEndpoint)
    (clientId clientSecret subjectToken audience scope : String) :
    endpoint.read (requestTokenExchange clientSecret subjectToken audience scope) =
        some ⟨"frontend", clientSecret, subjectToken, audience, scope⟩ ∧
      endpoint.read (requestExchange clientId clientSecret subjectToken audience scope) =
        some ⟨clientId, clientSecret, subjectToken, audience, scope⟩ ∧
      endpoint.read (exchangeValues clientId clientSecret subjectToken audience scope) =
        some ⟨clientId, clientSecret, subjectToken, audience, scope⟩ ∧
      endpoint.read (exchangeBody clientId clientSecret subjectToken audience scope) =
        some ⟨clientId, clientSecret, subjectToken, audience, scope⟩ :=
  ⟨read_urlencoded _, read_urlencoded _, read_encodeValues _, read_urlencoded _⟩

end Reading

/-- The strict endpoint reads what the frontend asks for, punctuation of forms included. -/
example : strictEndpoint.read (requestTokenExchange "s&1" "a.b=c" "order-service" "openid") =
    some ⟨"frontend", "s&1", "a.b=c", "order-service", "openid"⟩ := by decide +kernel

end Gekko.Delegation
