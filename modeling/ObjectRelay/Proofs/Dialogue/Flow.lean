import ObjectRelay.Proofs.Connection.Agreement
import ObjectRelay.Proofs.Connection.Hearing

namespace ObjectRelay

/-- Some of the words, in one form, are about the vector. -/
def Mentions (form : List InventoryVector → Message) (words : List Message)
    (vector : InventoryVector) : Prop :=
  ∃ part, form part ∈ words ∧ vector ∈ part

section

variable {form : List InventoryVector → Message} {message : Message}
  {words later : List Message} {vector : InventoryVector}
  {vectors : List InventoryVector}

theorem Mentions.append_left (h : Mentions form words vector)
    (later : List Message) :
    Mentions form (words ++ later) vector := by
  obtain ⟨part, hpart, hvector⟩ := h
  exact ⟨part, List.mem_append_left later hpart, hvector⟩

theorem Mentions.append_right (h : Mentions form later vector)
    (words : List Message) :
    Mentions form (words ++ later) vector := by
  obtain ⟨part, hpart, hvector⟩ := h
  exact ⟨part, List.mem_append_right words hpart, hvector⟩

theorem Mentions.cons (h : Mentions form words vector) (message : Message) :
    Mentions form (message :: words) vector :=
  h.append_right [message]

theorem mentions_cons_self (hvector : vector ∈ vectors) (words : List Message) :
    Mentions form (form vectors :: words) vector :=
  ⟨vectors, List.mem_cons_self, hvector⟩

theorem Mentions.of_append (h : Mentions form (words ++ later) vector)
    (hnone : ∀ part, form part ∉ later) : Mentions form words vector := by
  obtain ⟨part, hpart, hvector⟩ := h
  rcases List.mem_append.mp hpart with hold | hnew
  · exact ⟨part, hold, hvector⟩
  · exact absurd hnew (hnone part)

theorem Mentions.of_cons (h : Mentions form (message :: words) vector)
    (hnone : ∀ part, message ≠ form part) : Mentions form words vector := by
  obtain ⟨part, hpart, hvector⟩ := h
  rcases List.mem_cons.mp hpart with hfirst | hrest
  · exact absurd hfirst.symm (hnone part)
  · exact ⟨part, hrest, hvector⟩

theorem mentions_append_iff :
    Mentions form (words ++ later) vector ↔
      Mentions form words vector ∨ Mentions form later vector := by
  constructor
  · rintro ⟨part, hpart, hvector⟩
    rcases List.mem_append.mp hpart with hold | hnew
    · exact .inl ⟨part, hold, hvector⟩
    · exact .inr ⟨part, hnew, hvector⟩
  · rintro (hold | hnew)
    · exact hold.append_left later
    · exact hnew.append_right words

theorem mentions_requestFor_iff :
    Mentions .getdata (Link.requestFor vectors) vector ↔ vector ∈ vectors := by
  constructor
  · rintro ⟨part, hpart, hvector⟩
    obtain ⟨-, hsame⟩ := Link.mem_requestFor.mp hpart
    rwa [← Message.getdata.inj hsame]
  · exact fun hvector =>
      ⟨vectors, Link.mem_requestFor.mpr ⟨List.ne_nil_of_mem hvector, rfl⟩,
        hvector⟩

end

/-- The giver holds the object, in a stream that the taker serves. -/
structure Stock.Offers (giver taker : Stock) (vector : InventoryVector)
    (object : Object) : Prop where
  held : giver.inventory.get? vector = some object
  served : taker.profile.streams.contains object.stream = true

theorem Stock.Offers.congr {giver taker other : Stock}
    {vector : InventoryVector} {object : Object}
    (h : giver.Offers taker vector object)
    (hprofile : other.profile = taker.profile) :
    giver.Offers other vector object :=
  ⟨h.held, hprofile ▸ h.served⟩

/-- Where an offered object is. -/
inductive Fate (taker : Stock) (there : List Message) (refused : Object → Prop)
    (vector : InventoryVector) (object : Object) : Prop where
  | held (h : (taker.inventory.get? vector).isSome = true)
  | refused (h : refused object)
  | announced (h : Mentions .inv there vector)
  | awaited (h : taker.outstanding.contains vector = true)

theorem Fate.imp {taker later : Stock} {there words : List Message}
    {refused gone : Object → Prop} {vector : InventoryVector} {object : Object}
    (h : Fate taker there refused vector object)
    (hheld : (taker.inventory.get? vector).isSome = true →
      (later.inventory.get? vector).isSome = true)
    (hrefused : refused object → gone object)
    (hannounced : Mentions .inv there vector → Mentions .inv words vector)
    (hawaited : taker.outstanding.contains vector = true →
      later.outstanding.contains vector = true) :
      Fate later words gone vector object := by
  cases h with
  | held h => exact .held (hheld h)
  | refused h => exact .refused (hrefused h)
  | announced h => exact .announced (hannounced h)
  | awaited h => exact .awaited (hawaited h)

/-- What goes from the giver there to the taker, and back.  All that is
announced, requested or carried is the giver's to give; what the taker awaits is
requested still, or carried; and each object of a giver that is active has its
fate. -/
structure Flow (active : Prop) (giver taker : Stock) (there back : List Message)
    (refused : Object → Prop) : Prop where
  announced : ∀ vector, Mentions .inv there vector → ∃ object,
    giver.Offers taker vector object
  requested : ∀ vector, Mentions .getdata back vector →
    ∃ object, giver.Offers taker vector object
  carried : ∀ object, .object object ∈ there → ∃ vector,
    object.vector taker.engine.hasher = .ok vector ∧
    giver.Offers taker vector object
  awaited : ∀ vector, taker.outstanding.contains vector = true →
    Mentions .getdata back vector ∨
      ∃ object, .object object ∈ there ∧
        object.vector taker.engine.hasher = .ok vector
  fate : active → ∀ vector object, giver.Offers taker vector object →
    Fate taker there refused vector object

namespace Flow

variable {active : Prop} {giver taker : Stock} {there back said : List Message}
  {refused : Object → Prop} {message : Message}

/-- Where nothing was said and nothing is awaited, nothing has to flow. -/
theorem of_silent (hactive : ¬ active)
    (hawaited : ∀ vector, taker.outstanding.contains vector = false)
    (hthere : ∀ word ∈ there, ¬ word.IsRelay)
    (hback : ∀ word ∈ back, ¬ word.IsRelay) :
    Flow active giver taker there back refused where
  announced := by
    rintro vector ⟨part, hpart, -⟩
    exact absurd trivial (hthere _ hpart)
  requested := by
    rintro vector ⟨part, hpart, -⟩
    exact absurd trivial (hback _ hpart)
  carried object hobject := absurd trivial (hthere _ hobject)
  awaited vector houtstanding := by
    rw [hawaited] at houtstanding
    cases houtstanding
  fate hbegun := absurd hbegun hactive

theorem not_awaited (h : Flow active giver taker [] [] refused)
    (vector : InventoryVector) :
    taker.outstanding.contains vector = false := by
  rw [Bool.eq_false_iff]
  intro hawaited
  rcases h.awaited vector hawaited with ⟨part, hpart, -⟩ | ⟨object, hobject, -⟩
  · cases hpart
  · cases hobject

/-- Where nothing is on its way, all that was offered was taken or refused. -/
theorem held_or_refused (h : Flow active giver taker [] [] refused)
    (hactive : active) {vector : InventoryVector} {object : Object}
    (hoffers : giver.Offers taker vector object) :
    (taker.inventory.get? vector).isSome = true ∨ refused object := by
  cases h.fate hactive vector object hoffers with
  | held hheld => exact .inl hheld
  | refused hrefused => exact .inr hrefused
  | announced hannounced =>
      obtain ⟨part, hpart, -⟩ := hannounced
      cases hpart
  | awaited hawaited =>
      rw [h.not_awaited] at hawaited
      cases hawaited

theorem mono {refused' : Object → Prop}
    (h : Flow active giver taker there back refused)
    (hrefused : ∀ object, refused object → refused' object) :
    Flow active giver taker there back refused' where
  announced := h.announced
  requested := h.requested
  carried := h.carried
  awaited := h.awaited
  fate hactive vector object hoffers :=
    (h.fate hactive vector object hoffers).imp id (hrefused object) id id

theorem taker_talks
    (h : Flow active giver taker (message :: there) back refused)
    (hinv : ∀ part, message ≠ .inv part)
    (hobject : ∀ object, message ≠ .object object)
    (hsaid : ∀ part, .getdata part ∉ said) :
    Flow active giver taker there (back ++ said) refused where
  announced vector hannounced := h.announced vector (hannounced.cons message)
  requested vector hrequested := h.requested vector (hrequested.of_append hsaid)
  carried object hcarried :=
    h.carried object (List.mem_cons_of_mem message hcarried)
  awaited vector hawaited := by
    rcases h.awaited vector hawaited with
      hrequested | ⟨object, hcarried, hvector⟩
    · exact .inl (hrequested.append_left said)
    · exact .inr ⟨object, List.mem_of_ne_of_mem (hobject object).symm hcarried,
        hvector⟩
  fate hactive vector object hoffers :=
    (h.fate hactive vector object hoffers).imp id id (·.of_cons hinv) id

theorem held_or_asked_or_awaited {taker : Link} (halone : taker.Alone)
    {vectors : List InventoryVector} {vector : InventoryVector}
    (hvector : vector ∈ vectors) :
    (taker.node.inventory.get? vector).isSome = true ∨
      vector ∈ taker.asked
          (taker.node.inventory.missing vectors taker.node.profile.streams) ∨
        taker.connection.outstanding.contains vector = true := by
  cases hheld : taker.node.inventory.get? vector with
  | some object => exact .inl rfl
  | none =>
      have hmissing : vector ∈
          taker.node.inventory.missing vectors taker.node.profile.streams :=
        Inventory.mem_missing.mpr ⟨hvector, by simp [Inventory.serves, hheld]⟩
      cases hrequested : taker.node.requests.isRequested vector with
      | true => exact .inr (.inr (halone.isRequested_eq vector ▸ hrequested))
      | false =>
          have hfree := RequestLedger.isRequested_eq_false_iff.mp hrequested
          exact .inr (.inl (Link.mem_asked.mpr ⟨hmissing, hfree⟩))

/-- What is announced and missing is requested, but for what is requested
already. -/
theorem taker_asks {taker after : Link} {vectors : List InventoryVector}
    {now : Nat} (halone : taker.Alone)
    (hasks : Link.Asks
      (taker.node.inventory.missing vectors taker.node.profile.streams) now
      taker after)
    (h : Flow active giver taker.stock (.inv vectors :: there) back refused) :
    Flow active giver after.stock there
      (back ++ Link.requestFor
        (taker.asked (taker.node.inventory.missing vectors
          taker.node.profile.streams))) refused := by
  have hprofile :
      after.stock.profile = taker.stock.profile := by rw [hasks.stock]
  have hengine : after.stock.engine = taker.stock.engine := by rw [hasks.stock]
  have hinventory : after.stock.inventory = taker.stock.inventory := by
    rw [hasks.stock]
  have hawaits : ∀ vector, after.stock.outstanding.contains vector = true ↔
      vector ∈ taker.asked
          (taker.node.inventory.missing vectors taker.node.profile.streams) ∨
        taker.connection.outstanding.contains vector = true := by
    intro vector
    rw [hasks.stock, Std.HashSet.contains_insertMany_list]
    simp [or_comm]
  have hcarried : ∀ object, .object object ∈ .inv vectors :: there →
      .object object ∈ there :=
    fun object => List.mem_of_ne_of_mem Message.noConfusion
  refine {
    announced := fun vector hannounced => ?announced
    requested := fun vector hrequested => ?requested
    carried := fun object hobject => ?carried
    awaited := fun vector hawaited => ?awaited
    fate := fun hactive vector object hoffers => ?fate }
  case announced =>
    obtain ⟨object, hoffers⟩ := h.announced vector (hannounced.cons _)
    exact ⟨object, hoffers.congr hprofile⟩
  case requested =>
    have hoffered : ∃ object, giver.Offers taker.stock vector object := by
      rcases mentions_append_iff.mp hrequested with hold | hnew
      · exact h.requested vector hold
      · have hmissing := (Link.mem_asked.mp (mentions_requestFor_iff.mp hnew)).1
        exact h.announced vector
          (mentions_cons_self (Inventory.mem_missing.mp hmissing).1 there)
    obtain ⟨object, hoffers⟩ := hoffered
    exact ⟨object, hoffers.congr hprofile⟩
  case carried =>
    obtain ⟨vector, hvector, hoffers⟩ :=
      h.carried object (List.mem_cons_of_mem _ hobject)
    exact ⟨vector, hengine ▸ hvector, hoffers.congr hprofile⟩
  case awaited =>
    rcases (hawaits vector).mp hawaited with hnew | hold
    · exact .inl ((mentions_requestFor_iff.mpr hnew).append_right back)
    · rw [hengine]
      rcases h.awaited vector hold with hrequested | ⟨object, hobject, hvector⟩
      · exact .inl (hrequested.append_left _)
      · exact .inr ⟨object, hcarried object hobject, hvector⟩
  case fate =>
    cases h.fate hactive vector object (hoffers.congr hprofile.symm) with
    | held hheld => exact .held (hinventory ▸ hheld)
    | refused hrefused => exact .refused hrefused
    | awaited hawaited => exact .awaited ((hawaits vector).mpr (.inr hawaited))
    | announced hannounced =>
        obtain ⟨part, hpart, hvector⟩ := hannounced
        rcases List.mem_cons.mp hpart with hfirst | hrest
        · rw [Message.inv.inj hfirst] at hvector
          rcases held_or_asked_or_awaited halone hvector with hheld | hawaited
          · exact .held (hinventory ▸ hheld)
          · exact .awaited ((hawaits vector).mpr hawaited)
        · exact .announced ⟨part, hrest, hvector⟩

theorem taker_takes {taker after : Link} {moment : Moment} {object : Object}
    (hdelivers : ∀ vector, object.vector taker.node.hasher = .ok vector →
      Link.Delivers moment vector object taker after)
    (hrefused : ¬ taker.node.Approves moment.clock object → refused object)
    (h : Flow active giver taker.stock (.object object :: there) back refused) :
    Flow active giver after.stock there back refused := by
  obtain ⟨vector, hvector, hgiven⟩ := h.carried object List.mem_cons_self
  replace hdelivers := hdelivers vector hvector
  have hprofile :
      after.stock.profile = taker.stock.profile := by rw [hdelivers.stock]
  have hengine :
      after.stock.engine = taker.stock.engine := by rw [hdelivers.stock]
  refine {
    announced := fun other hannounced => ?announced
    requested := fun other hrequested => ?requested
    carried := fun other hother => ?carried
    awaited := fun other hawaited => ?awaited
    fate := fun hactive other offered hoffers => ?fate }
  case announced =>
    obtain ⟨offered, hoffers⟩ := h.announced other (hannounced.cons _)
    exact ⟨offered, hoffers.congr hprofile⟩
  case requested =>
    obtain ⟨offered, hoffers⟩ := h.requested other hrequested
    exact ⟨offered, hoffers.congr hprofile⟩
  case carried =>
    obtain ⟨named, hnamed, hoffers⟩ :=
      h.carried other (List.mem_cons_of_mem _ hother)
    exact ⟨named, hengine ▸ hnamed, hoffers.congr hprofile⟩
  case awaited =>
    obtain ⟨hother, hbefore⟩ := hdelivers.contains_outstanding_iff.mp hawaited
    rw [hengine]
    rcases h.awaited other hbefore with hrequested | ⟨carried, hcarried, hnamed⟩
    · exact .inl hrequested
    · refine .inr ⟨carried, List.mem_of_ne_of_mem ?_ hcarried, hnamed⟩
      intro hsame
      rw [Message.object.inj hsame, hvector] at hnamed
      exact hother (Except.ok.inj hnamed)
  case fate =>
    by_cases hsame : other = vector
    · subst hsame
      have hobject : offered = object :=
        Option.some_inj.mp (hoffers.held.symm.trans hgiven.held)
      subst hobject
      by_cases happroves : taker.node.Approves moment.clock offered
      · exact .held (hdelivers.isSome_get?_of_approves hgiven.served happroves)
      · exact .refused (hrefused happroves)
    · refine (h.fate hactive other offered (hoffers.congr hprofile.symm)).imp
        hdelivers.isSome_get? id (·.of_cons fun _ => Message.noConfusion)
          fun hawaited => ?_
      exact hdelivers.contains_outstanding_iff.mpr ⟨Ne.symm hsame, hawaited⟩

/-- What the giver gains the taker holds already, and no object is announced or
carried. -/
theorem giver_grows {later : Prop} {grown : Stock}
    (hactive : later → active)
    (hkeeps : ∀ vector object, giver.inventory.get? vector = some object →
      grown.inventory.get? vector = some object)
    (hgains : ∀ vector object, grown.inventory.get? vector = some object →
      giver.inventory.get? vector = some object ∨
      (taker.inventory.get? vector).isSome = true)
    (hmessage : ∀ part, message ≠ .getdata part)
    (hinv : ∀ part, .inv part ∉ said)
    (hobject : ∀ object, .object object ∉ said)
    (h : Flow active giver taker there (message :: back) refused) :
    Flow later grown taker (there ++ said) back refused := by
  have hoffer : ∀ {vector object}, giver.Offers taker vector object →
      grown.Offers taker vector object :=
    fun hoffers => ⟨hkeeps _ _ hoffers.held, hoffers.served⟩
  refine {
    announced := fun vector hannounced =>
      (h.announced vector (hannounced.of_append hinv)).imp fun _ => hoffer
    requested := fun vector hrequested =>
      (h.requested vector (hrequested.cons message)).imp fun _ => hoffer
    carried := fun object hcarried => ?carried
    awaited := fun vector hawaited => ?awaited
    fate := fun hlater vector object hoffers => ?fate }
  case carried =>
    rcases List.mem_append.mp hcarried with hold | hnew
    · obtain ⟨vector, hvector, hoffers⟩ := h.carried object hold
      exact ⟨vector, hvector, hoffer hoffers⟩
    · exact absurd hnew (hobject object)
  case awaited =>
    rcases h.awaited vector hawaited with
      hrequested | ⟨object, hcarried, hvector⟩
    · exact .inl (hrequested.of_cons hmessage)
    · exact .inr ⟨object, List.mem_append_left said hcarried, hvector⟩
  case fate =>
    rcases hgains vector object hoffers.held with hold | htaken
    · exact (h.fate (hactive hlater) vector object ⟨hold, hoffers.served⟩).imp
        id id (·.append_left said) id
    · exact .held htaken

theorem giver_serves {later : Prop} {vectors : List InventoryVector}
    (hlater : later → active)
    (hnamed : ∀ vector object, giver.inventory.get? vector = some object →
      object.vector taker.engine.hasher = .ok vector)
    (h : Flow active giver taker there (.getdata vectors :: back) refused) :
    Flow later giver taker
      (there ++ (vectors.filterMap giver.inventory.get?).map .object) back
        refused := by
  have hserved : ∀ {object}, .object object ∈
      (vectors.filterMap giver.inventory.get?).map Message.object ↔
        ∃ vector ∈ vectors, giver.inventory.get? vector = some object := by
    intro object
    simp [List.mem_filterMap]
  have hinv : ∀ part, .inv part ∉
      (vectors.filterMap giver.inventory.get?).map Message.object := by
    simp
  refine {
    announced := fun vector hannounced =>
      h.announced vector (hannounced.of_append hinv)
    requested := fun vector hrequested => h.requested vector (hrequested.cons _)
    carried := fun object hcarried => ?carried
    awaited := fun vector hawaited => ?awaited
    fate := fun hactive vector object hoffers =>
      (h.fate (hlater hactive) vector object hoffers).imp id id
        (·.append_left _) id }
  case carried =>
    rcases List.mem_append.mp hcarried with hold | hnew
    · exact h.carried object hold
    · obtain ⟨vector, hvector, hheld⟩ := hserved.mp hnew
      obtain ⟨offered, hoffers⟩ :=
        h.requested vector (mentions_cons_self hvector back)
      have hsame : offered = object :=
        Option.some_inj.mp (hoffers.held.symm.trans hheld)
      exact ⟨vector, hnamed vector object hheld, hsame ▸ hoffers⟩
  case awaited =>
    rcases h.awaited vector hawaited with
      ⟨part, hpart, hvector⟩ | ⟨object, hcarried, hvector⟩
    · rcases List.mem_cons.mp hpart with hfirst | hrest
      · rw [Message.getdata.inj hfirst] at hvector
        obtain ⟨object, hoffers⟩ :=
          h.requested vector (mentions_cons_self hvector back)
        exact .inr ⟨object,
          List.mem_append_right there (hserved.mpr ⟨vector, hvector,
          hoffers.held⟩), hnamed vector object hoffers.held⟩
      · exact .inl ⟨part, hrest, hvector⟩
    · exact .inr ⟨object, List.mem_append_left _ hcarried, hvector⟩

theorem giver_opens {streams : List UInt64}
    (hstreams : ∀ vector object, giver.inventory.get? vector = some object →
      (streams.contains object.stream = true ↔
        taker.profile.streams.contains object.stream = true))
    (hmessage : ∀ part, message ≠ .getdata part)
    (hwords : ∀ word ∈ said, ¬ word.IsRelay)
    {later : Prop}
    (h : Flow active giver taker there (message :: back) refused) :
    Flow later giver taker
      (there ++ (said ++ Message.announce (giver.inventory.vectors streams)))
        back refused := by
  have hoffers : ∀ {vector}, vector ∈ giver.inventory.vectors streams ↔
      ∃ object, giver.Offers taker vector object := by
    intro vector
    rw [Inventory.mem_vectors]
    constructor
    · rintro ⟨object, hheld, hstream⟩
      exact ⟨object, hheld, (hstreams vector object hheld).mp hstream⟩
    · rintro ⟨object, hheld, hserved⟩
      exact ⟨object, hheld, (hstreams vector object hheld).mpr hserved⟩
  have hannounces : ∀ {vector}, Mentions .inv
      (said ++ Message.announce (giver.inventory.vectors streams)) vector ↔
        ∃ object, giver.Offers taker vector object := by
    intro vector
    rw [mentions_append_iff, ← hoffers, ← Message.exists_inv_mem_announce_iff]
    constructor
    · rintro (⟨part, hpart, -⟩ | hannounced)
      · exact absurd trivial (hwords _ hpart)
      · exact hannounced
    · exact .inr
  have hobject : ∀ object, .object object ∉
      said ++ Message.announce (giver.inventory.vectors streams) := by
    intro object hmem
    rcases List.mem_append.mp hmem with hsaid | hannounced
    · exact hwords _ hsaid trivial
    · obtain ⟨part, hpart, -⟩ := Message.eq_inv_of_mem_announce hannounced
      cases hpart
  refine {
    announced := fun vector hannounced => ?announced
    requested := fun vector hrequested =>
      h.requested vector (hrequested.cons message)
    carried := fun object hcarried => ?carried
    awaited := fun vector hawaited => ?awaited
    fate := fun _ vector object hoffered =>
      .announced ((hannounces.mpr ⟨object, hoffered⟩).append_right there) }
  case announced =>
    rcases mentions_append_iff.mp hannounced with hold | hnew
    · exact h.announced vector hold
    · exact hannounces.mp hnew
  case carried =>
    rcases List.mem_append.mp hcarried with hold | hnew
    · exact h.carried object hold
    · exact absurd hnew (hobject object)
  case awaited =>
    rcases h.awaited vector hawaited with
      hrequested | ⟨object, hcarried, hvector⟩
    · exact .inl (hrequested.of_cons hmessage)
    · exact .inr ⟨object, List.mem_append_left _ hcarried, hvector⟩

variable {other : Profile} {moment : Moment}

theorem taker_hears {taker after : Link} (halone : taker.Alone)
    (hhears : Link.Hears other taker moment message said after)
    (hrefused : ∀ object, message = .object object →
      ¬ taker.node.Approves moment.clock object → refused object)
    (h : Flow active giver taker.stock (message :: there) back refused) :
    Flow active giver after.stock there (back ++ said) refused := by
  cases hhears with
  | talks hmessage hsaid hstock hactive =>
      rw [hstock]
      refine h.taker_talks ?_ ?_ ?_
      · rintro part rfl
        exact hmessage trivial
      · rintro object rfl
        exact hmessage trivial
      · exact fun part hmem => hsaid _ hmem trivial
  | opens words hmessage hwords hstock hopens =>
      rw [hstock]
      refine h.taker_talks ?_ ?_ ?_
      · rintro part rfl
        exact hmessage trivial
      · rintro object rfl
        exact hmessage trivial
      · intro part hmem
        rcases List.mem_append.mp hmem with hword | hflood
        · exact hwords _ hword trivial
        · exact hopens.floods.ne_getdata hflood part rfl
  | asks hactive hasks => exact taker_asks halone hasks h
  | serves hactive hstock =>
      rw [hstock]
      exact h.taker_talks (fun _ => Message.noConfusion)
        (fun _ => Message.noConfusion) (by simp)
  | takes hactive hdelivers =>
      rw [List.append_nil]
      exact taker_takes hdelivers (hrefused _ rfl) h

theorem giver_hears {giver after : Link} (hintact : giver.node.Intact)
    (hhasher : giver.node.hasher = taker.engine.hasher)
    (hhears : Link.Hears taker.profile giver moment message said after)
    (hback : ∀ object, message = .object object → ∃ vector,
      object.vector giver.node.hasher = .ok vector ∧
        (taker.inventory.get? vector).isSome = true)
    (h : Flow (giver.connection.isActive = true) giver.stock taker there
      (message :: back) refused) :
    Flow (after.connection.isActive = true) after.stock taker (there ++ said)
      back refused := by
  cases hhears with
  | talks hmessage hsaid hstock hactive =>
      rw [hstock, hactive]
      refine h.giver_grows id (fun _ _ => id) (fun _ _ => .inl) ?_ ?_ ?_
      · rintro part rfl
        exact hmessage trivial
      · exact fun part hmem => hsaid _ hmem trivial
      · exact fun object hmem => hsaid _ hmem trivial
  | @opens message words said after hmessage hwords hstock hopens =>
      obtain ⟨told, htold, rfl⟩ := hopens.floods
      have hinventory : after.node.inventory = giver.stock.inventory :=
        congrArg Stock.inventory hstock
      have hprofile : after.node.profile = giver.stock.profile :=
        congrArg Stock.profile hstock
      rw [hstock, hinventory, ← List.append_assoc words]
      refine h.giver_opens ?_ ?_ ?_
      · intro vector object hheld
        have hserved := (hintact vector object hheld).stream
        rw [hopens.engaged.met.streams, hprofile, List.contains_iff_mem,
          List.mem_filter]
        exact ⟨And.right,
          fun htaken => ⟨List.contains_iff_mem.mp hserved, htaken⟩⟩
      · rintro part rfl
        exact hmessage trivial
      · intro word hmem
        rcases List.mem_append.mp hmem with hword | haddress
        · exact hwords word hword
        · obtain ⟨records, rfl⟩ := htold word haddress
          exact fun hrelay => hrelay
  | asks hactive hasks =>
      have hinventory : after.stock.inventory = giver.stock.inventory := by
        rw [hasks.stock]
      refine h.giver_grows (fun _ => hactive) ?_ ?_
        (fun _ => Message.noConfusion) ?_ ?_
      · exact fun vector object hheld => hinventory ▸ hheld
      · exact fun vector object hheld => .inl (hinventory ▸ hheld)
      · exact fun part hmem =>
          Message.noConfusion (Link.mem_requestFor.mp hmem).2
      · exact fun object hmem =>
          Message.noConfusion (Link.mem_requestFor.mp hmem).2
  | serves hactive hstock =>
      rw [hstock]
      exact h.giver_serves (fun _ => hactive) fun vector object hheld =>
        hhasher ▸ (hintact vector object hheld).named
  | @takes object after hactive hdelivers =>
      obtain ⟨vector, hvector, htaken⟩ := hback object rfl
      replace hdelivers := hdelivers vector hvector
      refine h.giver_grows (fun _ => hactive) ?_ ?_
        (fun _ => Message.noConfusion) (by simp) (by simp)
      · exact fun other held hheld => hdelivers.get?_eq_some hheld
      · intro other held hheld
        rcases hdelivers.eq_or_get?_eq_some hheld with ⟨rfl, -⟩ | hold
        · exact .inr htaken
        · exact .inl hold

end Flow

end ObjectRelay
