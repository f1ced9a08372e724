import ZhiyanRag.Base
import ZhiyanRag.Retrieval.Json

/-!
# The embeddings of one request

`_RequestEmbeddingProvider` of `online.py` keeps the vectors of one request, so that the prewarmed
question, the route queries and the routes' threads do not embed a text twice. Each call holds the
lock, so what the threads do is a sequence of calls. A provider that is a function of each text may
fail in any of them, and a vector may fail to convert after others were kept.
-/

namespace ZhiyanRag.Retrieval

/-- The `embed` of an embedding provider during one call. -/
abbrev EmbedFunction (ν : Type) := List String → Except PyError (List (List ν))

abbrev QueryVector := List PyFloat

/-- `_vectors`. -/
abbrev CachedVectors := List (String × QueryVector)

/-- What a call does: the vectors it keeps, the texts it sends to the underlying provider, and what
it returns or raises. -/
structure EmbedOutcome where
  vectors : CachedVectors
  sent : List String
  result : Except PyError (List QueryVector)

section

variable {ν : Type} (toFloat : ν → Except PyError PyFloat)

/-- `tuple(float(value) for value in vector)`. -/
def floats (vector : List ν) : Except PyError QueryVector := vector.mapM toFloat

/-- The loop over the new vectors: what it keeps, and what it raises. -/
def storeVectors (vectors : CachedVectors) :
    List (String × List ν) → CachedVectors × Except PyError Unit
  | [] => (vectors, .ok ())
  | (text, vector) :: rest =>
    match floats toFloat vector with
    | .error error => (vectors, .error error)
    | .ok cached =>
      if cached.isEmpty
        then (vectors, .error ⟨.valueError, "embedding provider returned an empty query vector"⟩)
      else storeVectors (vectors ++ [(text, cached)]) rest

/-- `unique_missing`. -/
def missingTexts (vectors : CachedVectors) (requested : List String) : List String :=
  requested.eraseDups.filter fun text => (vectors.lookup text).isNone

/-- `[list(self._vectors[text]) for text in requested]`. -/
def readVectors (vectors : CachedVectors) (requested : List String) :
    Except PyError (List QueryVector) :=
  requested.mapM fun text => (vectors.lookup text).elim (.error ⟨.lookupError, text⟩) .ok

/-- `_RequestEmbeddingProvider.embed`. -/
def embed (provider : EmbedFunction ν) (vectors : CachedVectors) (requested : List String) :
    EmbedOutcome :=
  if requested.isEmpty then ⟨vectors, [], .ok []⟩
  else
    let missing := missingTexts vectors requested
    if missing.isEmpty then ⟨vectors, [], readVectors vectors requested⟩
    else
      match provider missing with
      | .error error => ⟨vectors, missing, .error error⟩
      | .ok returned =>
        if returned.length ≠ missing.length then
          ⟨vectors, missing,
            .error ⟨.valueError, "embedding provider must return one vector per query"⟩⟩
        else
          match storeVectors toFloat vectors (missing.zip returned) with
          | (vectors, .error error) => ⟨vectors, missing, .error error⟩
          | (vectors, .ok ()) => ⟨vectors, missing, readVectors vectors requested⟩

/-- `_embed_route_queries`, the vector of each query. -/
def embedRouteQueries (provider : EmbedFunction ν) (vectors : CachedVectors)
    (routeQueries : List (String × String)) :
    CachedVectors × Except PyError (List (String × QueryVector)) :=
  let uniqueQueries := (routeQueries.map Prod.snd).eraseDups
  let outcome := embed toFloat provider vectors uniqueQueries
  (outcome.vectors, outcome.result.bind fun vectors =>
    if vectors.length ≠ uniqueQueries.length then
      .error ⟨.valueError, "embedding count does not match online route queries"⟩
    else .ok (uniqueQueries.zip vectors))

/-- One call of a thread. -/
structure EmbedCall (ν : Type) where
  provider : EmbedFunction ν
  texts : List String

def EmbedCall.outcome (call : EmbedCall ν) (vectors : CachedVectors) : EmbedOutcome :=
  embed toFloat call.provider vectors call.texts

/-- The vectors that a sequence of calls leaves. -/
def vectorsAfter (vectors : CachedVectors) (calls : List (EmbedCall ν)) : CachedVectors :=
  calls.foldl (fun vectors call => (call.outcome toFloat vectors).vectors) vectors

end

/-! ### The plain provider -/

section

variable {ν : Type} {toFloat : ν → Except PyError PyFloat} {f : String → List ν}
  {provider : EmbedFunction ν} {vectors : CachedVectors} {requested : List String}

/-- The provider embeds each text by itself whenever it does not fail. -/
def IsFunctionOfText (f : String → List ν) (provider : EmbedFunction ν) : Prop :=
  ∀ texts returned, provider texts = .ok returned → returned = texts.map f

/-- The vector of a text without a cache. -/
def underlyingVector (toFloat : ν → Except PyError PyFloat) (f : String → List ν) (text : String) :
    Except PyError QueryVector :=
  floats toFloat (f text)

/-- Every cached vector is the vector of its text. -/
def HoldsUnderlying (toFloat : ν → Except PyError PyFloat) (f : String → List ν)
    (vectors : CachedVectors) : Prop :=
  ∀ text vector, vectors.lookup text = some vector → underlyingVector toFloat f text = .ok vector

/-- What was cached before is cached, with the same vector. -/
def Keeps (before after : CachedVectors) : Prop :=
  ∀ text vector, before.lookup text = some vector → after.lookup text = some vector

theorem Keeps.refl (vectors : CachedVectors) : Keeps vectors vectors := fun _ _ h => h

theorem Keeps.trans {a b c : CachedVectors} (h : Keeps a b) (h' : Keeps b c) :
    Keeps a c := fun text vector hv => h' text vector (h text vector hv)

theorem keeps_append (vectors more : CachedVectors) : Keeps vectors (vectors ++ more) := by
  intro text vector h
  rw [List.lookup_append, h]
  rfl

theorem Keeps.isSome {before after : CachedVectors} (h : Keeps before after) {text : String}
    (hcached : (before.lookup text).isSome = true) : (after.lookup text).isSome = true := by
  obtain ⟨vector, hvector⟩ := Option.isSome_iff_exists.mp hcached
  rw [h text vector hvector]
  rfl

theorem HoldsUnderlying.append {text : String} {vector : QueryVector}
    (h : HoldsUnderlying toFloat f vectors)
    (hvector : underlyingVector toFloat f text = .ok vector) :
    HoldsUnderlying toFloat f (vectors ++ [(text, vector)]) := by
  intro other cached hcached
  rw [List.lookup_append] at hcached
  rcases Option.or_eq_some_iff.mp hcached with hold | ⟨-, hnew⟩
  · exact h other cached hold
  · by_cases heq : other = text
    · subst heq
      rw [List.lookup_cons_self] at hnew
      exact Option.some.inj hnew ▸ hvector
    · rw [List.lookup_cons, beq_false_of_ne heq] at hnew
      cases hnew

/-! ### One call -/

theorem nodup_eraseDups {α : Type} [BEq α] [LawfulBEq α] (xs : List α) : xs.eraseDups.Nodup := by
  induction hn : xs.length using Nat.strong_induction_on generalizing xs with
  | _ n ih =>
    cases xs with
    | nil => exact List.nodup_nil
    | cons x rest =>
      rw [List.eraseDups_cons, List.nodup_cons]
      have hlength := List.length_filter_le (fun y => !y == x) rest
      rw [List.length_cons] at hn
      refine ⟨fun hmem => ?_, ih _ (by omega) _ rfl⟩
      have hne := (List.mem_filter.mp (List.mem_eraseDups.mp hmem)).2
      simp at hne

theorem mem_missingTexts {text : String} :
    text ∈ missingTexts vectors requested ↔ text ∈ requested ∧ vectors.lookup text = none := by
  unfold missingTexts
  rw [List.mem_filter, List.mem_eraseDups, Option.isNone_iff_eq_none]

theorem nodup_missingTexts (vectors : CachedVectors) (requested : List String) :
    (missingTexts vectors requested).Nodup :=
  (nodup_eraseDups requested).filter _

/-- The loop only adds vectors of their texts, also when it raises, and all of them when it does
not. -/
theorem storeVectors_spec {texts : List String} (h : HoldsUnderlying toFloat f vectors)
    {result : CachedVectors × Except PyError Unit}
    (hresult : storeVectors toFloat vectors (texts.zip (texts.map f)) = result) :
    HoldsUnderlying toFloat f result.1 ∧ Keeps vectors result.1 ∧
      (result.2 = .ok () → ∀ text ∈ texts, (result.1.lookup text).isSome = true) := by
  subst hresult
  induction texts generalizing vectors with
  | nil => exact ⟨h, Keeps.refl vectors, fun _ _ hmem => by cases hmem⟩
  | cons text texts ih =>
    rw [List.map_cons, List.zip_cons_cons]
    unfold storeVectors
    split
    · exact ⟨h, Keeps.refl vectors, fun hok => by cases hok⟩
    · rename_i cached hcached
      split
      · exact ⟨h, Keeps.refl vectors, fun hok => by cases hok⟩
      · obtain ⟨hholds, hkeeps, hall⟩ := ih (h.append hcached)
        refine ⟨hholds, (keeps_append _ _).trans hkeeps,
          fun hok => List.forall_mem_cons.mpr ⟨?_, hall hok⟩⟩
        apply hkeeps.isSome
        rw [List.lookup_append, List.lookup_cons_self]
        simp

theorem readVectors_eq_ok {result : List QueryVector}
    (h : readVectors vectors requested = .ok result) :
    List.Forall₂ (fun text vector => vectors.lookup text = some vector) requested result := by
  refine (mapM_eq_ok.mp h).imp fun text vector hread => ?_
  cases hlookup : vectors.lookup text with
  | none => rw [hlookup] at hread; cases hread
  | some cached => rw [hlookup] at hread; rw [Except.ok.inj hread]

/-- The three ways of a call: everything is cached, the provider fails, or the new vectors are kept
one after the other. -/
theorem embed_cases (hf : IsFunctionOfText f provider) :
    (missingTexts vectors requested = [] ∧
      embed toFloat provider vectors requested = ⟨vectors, [], readVectors vectors requested⟩) ∨
    (∃ error, provider (missingTexts vectors requested) = .error error ∧
      embed toFloat provider vectors requested = ⟨vectors, missingTexts vectors requested,
        .error error⟩) ∨
    (∃ stored, storeVectors toFloat vectors ((missingTexts vectors requested).zip
      ((missingTexts vectors requested).map f)) = stored ∧
      embed toFloat provider vectors requested =
        ⟨stored.1, missingTexts vectors requested, stored.2.bind fun _ => readVectors stored.1
          requested⟩) := by
  unfold embed
  by_cases hempty : requested = []
  · subst hempty
    exact .inl ⟨rfl, rfl⟩
  rw [if_neg (by rwa [List.isEmpty_iff])]
  by_cases hmissing : missingTexts vectors requested = []
  · refine .inl ⟨hmissing, ?_⟩
    simp only [hmissing, List.isEmpty_nil, if_true]
  simp only [List.isEmpty_iff, hmissing, if_false]
  cases hprovider : provider (missingTexts vectors requested) with
  | error error => exact .inr (.inl ⟨error, rfl, rfl⟩)
  | ok returned =>
    obtain rfl := hf _ _ hprovider
    refine .inr (.inr ⟨_, rfl, ?_⟩)
    simp only [List.length_map, ne_eq, not_true_eq_false, if_false]
    rcases storeVectors toFloat vectors
      ((missingTexts vectors requested).zip ((missingTexts vectors requested).map f))
        with ⟨stored, error | ⟨⟩⟩
    · rfl
    · rfl

theorem embed_holds (hf : IsFunctionOfText f provider) (h : HoldsUnderlying toFloat f vectors) :
    HoldsUnderlying toFloat f (embed toFloat provider vectors requested).vectors := by
  rcases embed_cases hf with ⟨-, hembed⟩ | ⟨error, -, hembed⟩ | ⟨stored, hstored, hembed⟩
  · rw [hembed]
    exact h
  · rw [hembed]
    exact h
  · rw [hembed]
    exact (storeVectors_spec h hstored).1

theorem embed_keeps (hf : IsFunctionOfText f provider) (h : HoldsUnderlying toFloat f vectors) :
    Keeps vectors (embed toFloat provider vectors requested).vectors := by
  rcases embed_cases hf with ⟨-, hembed⟩ | ⟨error, -, hembed⟩ | ⟨stored, hstored, hembed⟩
  · rw [hembed]
    exact Keeps.refl vectors
  · rw [hembed]
    exact Keeps.refl vectors
  · rw [hembed]
    exact (storeVectors_spec h hstored).2.1

/-- Only texts of the call that are not cached are sent, each of them once. -/
theorem embed_sent (hf : IsFunctionOfText f provider) :
    (embed toFloat provider vectors requested).sent.Nodup ∧
    ∀ text ∈ (embed toFloat provider vectors requested).sent, text ∈ requested ∧
    vectors.lookup text = none := by
  have hsent : (embed toFloat provider vectors requested).sent = [] ∨
      (embed toFloat provider vectors requested).sent = missingTexts vectors requested := by
    rcases embed_cases hf with ⟨-, hembed⟩ | ⟨error, -, hembed⟩ | ⟨stored, -, hembed⟩
    · exact .inl (by rw [hembed])
    · exact .inr (by rw [hembed])
    · exact .inr (by rw [hembed])
  rcases hsent with hsent | hsent
  · rw [hsent]
    exact ⟨List.nodup_nil, fun _ hmem => by cases hmem⟩
  · rw [hsent]
    exact ⟨nodup_missingTexts vectors requested, fun _ => mem_missingTexts.mp⟩

/-- What a call returns is what the cache then has for its texts. -/
theorem embed_result (hf : IsFunctionOfText f provider) {result : List QueryVector}
    (hresult : (embed toFloat provider vectors requested).result = .ok result) :
    List.Forall₂ (fun text vector => (embed toFloat provider vectors requested).vectors.lookup
      text = some vector) requested result := by
  rcases embed_cases hf with ⟨-, hembed⟩ | ⟨error, -, hembed⟩ | ⟨stored, -, hembed⟩
  · rw [hembed] at hresult ⊢
    exact readVectors_eq_ok hresult
  · rw [hembed] at hresult
    cases hresult
  · rw [hembed] at hresult ⊢
    obtain ⟨-, -, hread⟩ := bind_eq_ok.mp hresult
    exact readVectors_eq_ok hread

/-! ### Calls that return -/

/-- The text has a vector that can be kept. -/
def HasVector (toFloat : ν → Except PyError PyFloat) (f : String → List ν) (text : String) : Prop :=
  ∃ vector, vector ≠ [] ∧ underlyingVector toFloat f text = .ok vector

theorem storeVectors_ok {texts : List String} (h : ∀ text ∈ texts, HasVector toFloat f text) :
    (storeVectors toFloat vectors (texts.zip (texts.map f))).2 = .ok () := by
  induction texts generalizing vectors with
  | nil => rfl
  | cons text texts ih =>
    obtain ⟨⟨vector, hne, hvector⟩, hrest⟩ := List.forall_mem_cons.mp h
    have hfloats : floats toFloat (f text) = .ok vector := hvector
    rw [List.map_cons, List.zip_cons_cons, storeVectors, hfloats]
    simp only [List.isEmpty_iff, hne, if_false]
    exact ih hrest

theorem readVectors_ok (h : ∀ text ∈ requested, (vectors.lookup text).isSome = true) :
    ∃ result, readVectors vectors requested = .ok result := by
  induction requested with
  | nil => exact ⟨[], rfl⟩
  | cons text rest ih =>
    obtain ⟨htext, hrest⟩ := List.forall_mem_cons.mp h
    obtain ⟨vector, hvector⟩ := Option.isSome_iff_exists.mp htext
    obtain ⟨result, hresult⟩ := ih hrest
    have htail := mapM_eq_ok.mp hresult
    exact ⟨vector :: result, mapM_eq_ok.mpr (.cons (by rw [hvector]; rfl) htail)⟩

theorem embed_answers (hf : IsFunctionOfText f provider) (h : HoldsUnderlying toFloat f vectors)
    (hvectors : ∀ text ∈ requested, HasVector toFloat f text)
    (hprovider : ∀ texts, ∃ returned, provider texts = .ok returned) :
    ∃ result, (embed toFloat provider vectors requested).result = .ok result := by
  rcases embed_cases hf with ⟨hmissing, hembed⟩ | ⟨error, herror, hembed⟩ | ⟨stored,
    hstored, hembed⟩
  · rw [hembed]
    apply readVectors_ok
    intro text htext
    by_contra hnone
    have hmem := mem_missingTexts.mpr ⟨htext, Option.not_isSome_iff_eq_none.mp hnone⟩
    rw [hmissing] at hmem
    cases hmem
  · obtain ⟨returned, hreturned⟩ := hprovider (missingTexts vectors requested)
    rw [hreturned] at herror
    cases herror
  · rw [hembed]
    have hok : stored.2 = .ok () := by
      rw [← hstored]
      exact storeVectors_ok fun text htext => hvectors text (mem_missingTexts.mp htext).1
    obtain ⟨-, hkeeps, hall⟩ := storeVectors_spec h hstored
    rw [hok]
    apply readVectors_ok
    intro text htext
    cases hlookup : vectors.lookup text with
    | none => exact hall hok text (mem_missingTexts.mpr ⟨htext, hlookup⟩)
    | some vector => exact hkeeps.isSome (hlookup ▸ rfl)

/-! ### Runs -/

theorem vectorsAfter_spec {calls : List (EmbedCall ν)}
    (hf : ∀ call ∈ calls, IsFunctionOfText f call.provider)
    (h : HoldsUnderlying toFloat f vectors) :
    HoldsUnderlying toFloat f (vectorsAfter toFloat vectors calls) ∧
    Keeps vectors (vectorsAfter toFloat vectors calls) := by
  induction calls generalizing vectors with
  | nil => exact ⟨h, Keeps.refl vectors⟩
  | cons call rest ih =>
    obtain ⟨hcall, hrest⟩ := List.forall_mem_cons.mp hf
    have houtcome : HoldsUnderlying toFloat f (call.outcome toFloat vectors).vectors :=
      embed_holds hcall h
    obtain ⟨hholds, hkeeps⟩ := ih hrest houtcome
    exact ⟨hholds, (embed_keeps hcall h).trans hkeeps⟩

/-- What a call owes: its own result, and the caches and sent texts of the calls after it. -/
structure Transparent (toFloat : ν → Except PyError PyFloat) (f : String → List ν)
    (before : List (EmbedCall ν)) (call : EmbedCall ν) (after : List (EmbedCall ν)) : Prop where
  returns : ∀ result, (call.outcome toFloat (vectorsAfter toFloat [] before)).result = .ok result →
    List.Forall₂ (fun text vector => underlyingVector toFloat f text = .ok vector) call.texts result
  answers : (∀ text ∈ call.texts, HasVector toFloat f text) →
    (∀ texts, ∃ returned, call.provider texts = .ok returned) → ∃ result,
      (call.outcome toFloat (vectorsAfter toFloat [] before)).result = .ok result
  caches : ∀ result, (call.outcome toFloat (vectorsAfter toFloat [] before)).result = .ok result →
    ∀ text ∈ call.texts, ((vectorsAfter toFloat [] (before ++ [call])).lookup text).isSome = true
  keeps : Keeps (vectorsAfter toFloat [] before) (vectorsAfter toFloat [] (before ++ [call]))
  holds : HoldsUnderlying toFloat f (vectorsAfter toFloat [] (before ++ [call]))
  sendsOnce : (call.outcome toFloat (vectorsAfter toFloat [] before)).sent.Nodup
  notSentAgain : ∀ text, ((vectorsAfter toFloat [] (before ++ [call])).lookup text).isSome = true →
    ∀ between next rest, after = between ++ next :: rest →
    text ∉ (next.outcome toFloat (vectorsAfter toFloat [] (before ++ call :: between))).sent

theorem vectorsAfter_snoc (calls : List (EmbedCall ν)) (call : EmbedCall ν) :
    vectorsAfter toFloat vectors (calls ++ [call]) =
      (call.outcome toFloat (vectorsAfter toFloat vectors calls)).vectors := by
  unfold vectorsAfter
  rw [List.foldl_append]
  rfl

theorem embed_transparent (toFloat : ν → Except PyError PyFloat) (f : String → List ν)
    (before : List (EmbedCall ν)) (call : EmbedCall ν) (after : List (EmbedCall ν))
    (hf : ∀ c ∈ before ++ call :: after, IsFunctionOfText f c.provider) :
    Transparent toFloat f before call after := by
  have hempty : HoldsUnderlying toFloat f [] := fun _ _ h => by cases h
  have hbefore : ∀ c ∈ before, IsFunctionOfText f c.provider := fun c hc =>
    hf c (List.mem_append_left _ hc)
  have hcall : IsFunctionOfText f call.provider :=
    hf call (List.mem_append_right _ List.mem_cons_self)
  obtain ⟨hholds, -⟩ := vectorsAfter_spec hbefore hempty
  have hafter : HoldsUnderlying toFloat f
      (call.outcome toFloat (vectorsAfter toFloat [] before)).vectors := embed_holds hcall hholds
  have hresult : ∀ result,
      (call.outcome toFloat (vectorsAfter toFloat [] before)).result = .ok result → List.Forall₂
      (fun text vector => (vectorsAfter toFloat [] (before ++ [call])).lookup text = some vector)
        call.texts result := by
    intro result h
    rw [vectorsAfter_snoc]
    exact embed_result hcall h
  constructor
  · intro result h
    refine (hresult result h).imp fun text vector hlookup => ?_
    rw [vectorsAfter_snoc] at hlookup
    exact hafter text vector hlookup
  · exact embed_answers hcall hholds
  · intro result h
    exact ((List.forall₂_and_left call.texts result).mp
      ((hresult result h).imp fun text vector hlookup => ⟨hlookup ▸ rfl, hlookup⟩)).1
  · rw [vectorsAfter_snoc]
    exact embed_keeps hcall hholds
  · rw [vectorsAfter_snoc]
    exact hafter
  · exact (embed_sent hcall).1
  · rintro text hcached between next rest rfl hsent
    have hbetween : ∀ c ∈ between, IsFunctionOfText f c.provider := fun c hc =>
      hf c (List.mem_append_right _ (List.mem_cons_of_mem _ (List.mem_append_left _ hc)))
    have hnext : IsFunctionOfText f next.provider :=
      hf next (List.mem_append_right _
        (List.mem_cons_of_mem _ (List.mem_append_right _ List.mem_cons_self)))
    rw [vectorsAfter_snoc] at hcached
    have hlater : ((vectorsAfter toFloat [] (before ++ call :: between)).lookup text).isSome =
        true := by
      have hrun : vectorsAfter toFloat [] (before ++ call :: between) =
          vectorsAfter toFloat (call.outcome toFloat (vectorsAfter toFloat [] before)).vectors
            between := by
        unfold vectorsAfter
        rw [List.foldl_append]
        rfl
      rw [hrun]
      exact (vectorsAfter_spec hbetween hafter).2.isSome hcached
    rw [((embed_sent hnext).2 text hsent).2] at hlater
    cases hlater

/-- The vector of a text is its length. -/
def fixedVector (text : String) : List Rat := [(text.length : Rat)]

def fixedProvider (fails : Bool) : EmbedFunction Rat := fun texts =>
  if fails then .error ⟨.operationalError, "unavailable"⟩ else .ok (texts.map fixedVector)

theorem fixedProvider_isFunctionOfText (fails : Bool) :
    IsFunctionOfText fixedVector (fixedProvider fails) := by
  intro texts returned h
  cases fails with
  | true => cases h
  | false => exact (Except.ok.inj h).symm

/-- A retry after a failing call. -/
theorem embed_transparent_retry : Transparent (fun n => .ok (.finite n)) fixedVector
    [⟨fixedProvider false, ["a"]⟩, ⟨fixedProvider true, ["bb", "a"]⟩]
      ⟨fixedProvider false, ["bb", "a", "bb"]⟩ [⟨fixedProvider true, ["a"]⟩] := by
  refine embed_transparent _ fixedVector _ _ _ ?_
  simp [fixedProvider_isFunctionOfText]

end

end ZhiyanRag.Retrieval
