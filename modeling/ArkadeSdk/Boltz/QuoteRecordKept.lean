import ArkadeSdk.Boltz.QuoteRecord

/-! Which interleavings leave the accepted quote and the claim in the record. -/

namespace ArkadeSdk.QuoteRecord

open JsNumber LabelledRun

theorem resolveEffectiveFloor_flat {options : QuoteSwapOptions} {floor effectiveFloor : ℕ}
    (hslippage : options.maxSlippageBps = none)
    (h : resolveEffectiveFloor options floor = .ok effectiveFloor) : effectiveFloor = floor := by
  unfold resolveEffectiveFloor at h
  rw [hslippage] at h
  have hfloor : ((floor : ℤ) * 10000 - floor * (none : Option ℤ).getD 0) / 10000 = floor := by
    rw [Option.getD_none, mul_zero, sub_zero]
    exact Int.mul_ediv_cancel _ (by decide)
  dsimp only at h
  rw [hfloor] at h
  split at h
  · cases h
  · simpa using (Except.ok.inj h).symm

theorem le_of_validateQuote {amount : Number} {effectiveFloor n : ℕ}
    (h : validateQuote amount effectiveFloor = .ok n) : effectiveFloor ≤ n := by
  unfold validateQuote at h
  split at h
  · cases h
  · rename_i z _
    split at h
    · cases h
    · rename_i hpos
      split at h
      · cases h
      · rename_i hfloor
        obtain rfl := Except.ok.inj h
        omega

/-- The quote with a number, the first one being one. -/
def quoteAt (posted : List (ℕ × Bool)) (n : ℕ) : Option ℕ :=
  (posted.drop (posted.length - n)).head?.map Prod.fst

theorem quoteAt_length (posted : List (ℕ × Bool)) :
    quoteAt posted posted.length = posted.head?.map Prod.fst := by
  rw [quoteAt, Nat.sub_self, List.drop_zero]

theorem quoteAt_cons (p : ℕ × Bool) {posted : List (ℕ × Bool)} {n : ℕ} (hn : n ≤ posted.length) :
    quoteAt (p :: posted) n = quoteAt posted n := by
  rw [quoteAt, List.length_cons, Nat.succ_sub hn, List.drop_succ_cons, quoteAt]

/-- A number that a quote has been given. -/
structure Quote (posted : List (ℕ × Bool)) (n : ℕ) (amount : Option ℕ) : Prop where
  le : n ≤ posted.length
  eq : amount = quoteAt posted n

theorem Quote.cons {posted : List (ℕ × Bool)} {n : ℕ} {amount : Option ℕ}
    (h : Quote posted n amount) (p : ℕ × Bool) : Quote (p :: posted) n amount :=
  ⟨h.le.trans (Nat.le_succ _), h.eq.trans (quoteAt_cons p h.le).symm⟩

structure Version (posted : List (ℕ × Bool)) (heard : Heard) (record : Record) : Prop where
  quote : Quote posted heard.quotes record.acceptedQuoteAmount
  claim : record.claimTxid = heard.claim

theorem Version.cons {posted : List (ℕ × Bool)} {heard : Heard} {record : Record}
    (h : Version posted heard record) (p : ℕ × Bool) : Version (p :: posted) heard record :=
  ⟨h.quote.cons p, h.claim⟩

def Mirror.Told (posted : List (ℕ × Bool)) (heard : Heard) : Mirror → Prop
  | .accepted amount => Quote posted heard.quotes (some amount)
  | .claim txid => heard.claim = some txid

theorem Mirror.Told.cons {posted : List (ℕ × Bool)} {heard : Heard} {mirror : Mirror}
    (h : mirror.Told posted heard) (p : ℕ × Bool) : mirror.Told (p :: posted) heard := by
  cases mirror with
  | accepted amount => exact Quote.cons h p
  | claim txid => exact h

/-- A task carries what it has heard of. A quote with default options has for its floor what was
agreed as of the quotes that it has heard of. -/
def Task.Told (claimAmount : Option ℕ) (posted : List (ℕ × Bool)) (heard : Heard) : Task → Prop
  | .writes record mirror => Version posted heard record ∧
    ∀ j m, mirror = some (j, m) → m.Told posted heard
  | .quoted _ isDefault floor effectiveFloor => isDefault = true →
    effectiveFloor = floor ∧ ∃ amount, Quote posted heard.quotes amount ∧
      amount.or claimAmount = some floor
  | .records _ amount => Quote posted heard.quotes (some amount)
  | .updates _ delta _ => delta.claimTxid = heard.claim
  | .mirrors _ mirror => mirror.Told posted heard
  | .saves _ => True
  | .quotes _ _ => True

theorem Task.Told.cons {claimAmount : Option ℕ} {posted : List (ℕ × Bool)} {heard : Heard}
    {task : Task} (h : task.Told claimAmount posted heard) (p : ℕ × Bool) :
    task.Told claimAmount (p :: posted) heard := by
  cases task with
  | writes record mirror => exact ⟨h.1.cons p, fun j m hm ↦ (h.2 j m hm).cons p⟩
  | quoted caller isDefault floor effectiveFloor =>
    intro hdefault
    obtain ⟨hflat, amount, hquote, hfloor⟩ := h hdefault
    exact ⟨hflat, amount, hquote.cons p, hfloor⟩
  | records caller amount => exact Quote.cons h p
  | mirrors j mirror => exact Mirror.Told.cons h p
  | _ => exact h

section Tasks

variable {claimAmount : Option ℕ} {posted : List (ℕ × Bool)} {tasks : List Task} {task old : Task}
  {heards : ℕ → Heard} {heard : Heard} {i n : ℕ}

def AllTold (claimAmount : Option ℕ) (posted : List (ℕ × Bool)) (tasks : List Task)
    (heards : ℕ → Heard) : Prop :=
  ∀ k (task : Task), tasks[k]? = some task → task.Told claimAmount posted (heards k)

def Carries (n : ℕ) (tasks : List Task) (heards : ℕ → Heard) : Prop :=
  ∃ k, ∃ task : Task, tasks[k]? = some task ∧ task.Stores ∧ (heards k).quotes = n

theorem getElem?_concat_cases {α : Type} {xs : List α} {x y : α} {k : ℕ}
    (h : (xs ++ [x])[k]? = some y) : xs[k]? = some y ∧ k < xs.length ∨ k = xs.length ∧ y = x := by
  obtain hlt | heq := Nat.lt_or_ge k xs.length
  · rw [List.getElem?_append_left hlt] at h
    exact .inl ⟨h, hlt⟩
  · have hlen := (List.getElem?_eq_some_iff.mp h).1
    rw [List.length_append, List.length_singleton] at hlen
    obtain rfl : k = xs.length := by omega
    rw [List.getElem?_concat_length] at h
    exact .inr ⟨rfl, (Option.some.inj h).symm⟩

theorem AllTold.append (h : AllTold claimAmount posted tasks heards)
    (htask : task.Told claimAmount posted heard) :
    AllTold claimAmount posted (tasks ++ [task]) (Function.update heards tasks.length heard) := by
  intro k other hk
  obtain ⟨hk, hlt⟩ | ⟨rfl, rfl⟩ := getElem?_concat_cases hk
  · rw [Function.update_of_ne hlt.ne]
    exact h k other hk
  · rwa [Function.update_self]

theorem AllTold.set (h : AllTold claimAmount posted tasks heards)
    (htask : task.Told claimAmount posted heard) :
    AllTold claimAmount posted (tasks.set i task) (Function.update heards i heard) := by
  intro k other hk
  by_cases heq : k = i
  · subst heq
    rw [Function.update_self]
    rw [List.getElem?_set_self' ] at hk
    obtain ⟨_, -, rfl⟩ := Option.map_eq_some_iff.mp hk
    exact htask
  · rw [List.getElem?_set_ne (Ne.symm heq)] at hk
    rw [Function.update_of_ne heq]
    exact h k other hk

theorem AllTold.eraseIdx (h : AllTold claimAmount posted tasks heards) :
    AllTold claimAmount posted (tasks.eraseIdx i) (erased heards i) := by
  intro k other hk
  rw [List.getElem?_eraseIdx] at hk
  split at hk
  · next hlt =>
    rw [erased, if_pos hlt]
    exact h k other hk
  · next hlt =>
    rw [erased, if_neg hlt]
    exact h (k + 1) other hk

theorem Carries.append (h : Carries n tasks heards) :
    Carries n (tasks ++ [task]) (Function.update heards tasks.length heard) := by
  obtain ⟨k, other, hk, hstores, hquotes⟩ := h
  have hlt : k < tasks.length := (List.getElem?_eq_some_iff.mp hk).1
  refine ⟨k, other, ?_, hstores, ?_⟩
  · rwa [List.getElem?_append_left hlt]
  · rwa [Function.update_of_ne hlt.ne]

theorem Carries.set (h : Carries n tasks heards) (hold : tasks[i]? = some old)
    (hkeep : old.Stores → task.Stores ∧ heard.quotes = (heards i).quotes) :
    Carries n (tasks.set i task) (Function.update heards i heard) := by
  obtain ⟨k, other, hk, hstores, hquotes⟩ := h
  by_cases heq : k = i
  · subst heq
    obtain rfl := Option.some.inj (hold.symm.trans hk)
    obtain ⟨hstores', hsame⟩ := hkeep hstores
    have hlt : k < tasks.length := (List.getElem?_eq_some_iff.mp hk).1
    refine ⟨k, task, List.getElem?_set_self hlt, hstores', ?_⟩
    rw [Function.update_self, hsame, hquotes]
  · refine ⟨k, other, ?_, hstores, ?_⟩
    · rwa [List.getElem?_set_ne (Ne.symm heq)]
    · rwa [Function.update_of_ne heq]

theorem carries_set (hi : i < tasks.length) (hstores : task.Stores) :
    Carries heard.quotes (tasks.set i task) (Function.update heards i heard) :=
  ⟨i, task, List.getElem?_set_self hi, hstores, by rw [Function.update_self]⟩

theorem carries_eraseIdx {k : ℕ} (hne : k ≠ i) (hk : tasks[k]? = some task)
    (hstores : task.Stores) (hquotes : (heards k).quotes = n) :
    Carries n (tasks.eraseIdx i) (erased heards i) := by
  obtain hlt | hgt := Nat.lt_or_gt_of_ne hne
  · refine ⟨k, task, ?_, hstores, ?_⟩
    · rwa [List.getElem?_eraseIdx, if_pos hlt]
    · rwa [erased, if_pos hlt]
  · obtain ⟨k, rfl⟩ := Nat.exists_eq_add_of_lt hgt
    have hnot : ¬i + k < i := by omega
    refine ⟨i + k, task, ?_, hstores, ?_⟩
    · rwa [List.getElem?_eraseIdx, if_neg hnot]
    · rwa [erased, if_neg hnot]

theorem Carries.eraseIdx (h : Carries n tasks heards) (hold : tasks[i]? = some old)
    (hidle : ¬old.Stores) :
    Carries n (tasks.eraseIdx i) (erased heards i) := by
  obtain ⟨k, other, hk, hstores, hquotes⟩ := h
  refine carries_eraseIdx (fun heq ↦ ?_) hk hstores hquotes
  subst heq
  exact hidle (Option.some.inj (hold.symm.trans hk) ▸ hstores)

end Tasks

structure Inv (w : World) (l : Ledger) : Prop where
  stored : Version w.posted l.stored w.stored
  copies : ∀ (j : ℕ) (copy : Copy), w.copies[j]? = some copy →
    Version w.posted (l.copies j) copy.record
  tasks : AllTold w.claimAmount w.posted w.tasks l.tasks
  latest : l.stored.quotes = w.posted.length ∨ Carries w.posted.length w.tasks l.tasks
  claim : l.stored.claim = w.firstClaim
  posted : Chronicle (NotBelowAgreed w.claimAmount) w.posted

section Step

variable {w t : World} {l : Ledger} {heard : Heard} {task old : Task} {i j : ℕ}

theorem Inv.addTask (h : Inv w l) (htask : task.Told w.claimAmount w.posted heard) :
    Inv (w.addTask task) (l.begins w heard) :=
  ⟨h.stored, h.copies, h.tasks.append htask, h.latest.imp_right Carries.append, h.claim, h.posted⟩

theorem Inv.begins (h : Inv w l) (heard : Heard) : Inv w (l.begins w heard) := by
  refine ⟨h.stored, h.copies, fun k task hk ↦ ?_, h.latest.imp_right ?_, h.claim, h.posted⟩
  · have hlt : k < w.tasks.length := (List.getElem?_eq_some_iff.mp hk).1
    simp only [Ledger.begins, Function.update_of_ne hlt.ne]
    exact h.tasks k task hk
  · rintro ⟨k, task, hk, hstores, hquotes⟩
    have hlt : k < w.tasks.length := (List.getElem?_eq_some_iff.mp hk).1
    refine ⟨k, task, hk, hstores, ?_⟩
    simpa only [Ledger.begins, Function.update_of_ne hlt.ne] using hquotes

theorem goesOn_setTask (w : World) (l : Ledger) (i : ℕ) (task : Task) (heard : Heard) :
    l.goesOn w (w.setTask i task) i heard =
      { l with tasks := Function.update l.tasks i heard } := by
  rw [Ledger.goesOn, World.setTask, List.length_set, if_neg (Nat.lt_irrefl _)]

theorem goesOn_endTask (hi : w.tasks[i]? = some old) (l : Ledger) (heard : Heard) :
    l.goesOn w (w.endTask i) i heard = { l with tasks := erased l.tasks i } := by
  have hlt : i < w.tasks.length := (List.getElem?_eq_some_iff.mp hi).1
  rw [Ledger.goesOn, World.endTask, List.length_eraseIdx_of_lt hlt, if_pos (by omega)]

theorem Inv.setTask (h : Inv w l) (hi : w.tasks[i]? = some old)
    (htask : task.Told w.claimAmount w.posted heard)
    (hkeep : old.Stores → task.Stores ∧ heard.quotes = (l.tasks i).quotes) :
    Inv (w.setTask i task) (l.goesOn w (w.setTask i task) i heard) := by
  rw [goesOn_setTask]
  exact ⟨h.stored, h.copies, h.tasks.set htask, h.latest.imp_right (·.set hi hkeep), h.claim,
    h.posted⟩

theorem Inv.endTask (h : Inv w l) (hi : w.tasks[i]? = some old) (hidle : ¬old.Stores)
    (heard : Heard) : Inv (w.endTask i) (l.goesOn w (w.endTask i) i heard) := by
  rw [goesOn_endTask hi]
  exact ⟨h.stored, h.copies, h.tasks.eraseIdx, h.latest.imp_right (·.eraseIdx hi hidle), h.claim,
    h.posted⟩

theorem Inv.takes (h : Inv w l) {record : Record} (monitored : Bool)
    (hversion : Version w.posted heard record) :
    Inv { w with copies := w.copies ++ [⟨record, monitored⟩] } (l.takes w heard) := by
  refine ⟨h.stored, fun j copy hj ↦ ?_, h.tasks, h.latest, h.claim, h.posted⟩
  obtain ⟨hj, hlt⟩ | ⟨rfl, rfl⟩ := getElem?_concat_cases hj
  · simp only [Ledger.takes, Function.update_of_ne hlt.ne]
    exact h.copies j copy hj
  · simpa only [Ledger.takes, Function.update_self] using hversion

theorem Inv.withCopies (h : Inv w l) {copies : List Copy} {heards : ℕ → Heard}
    (hcopies : ∀ (j : ℕ) (copy : Copy), copies[j]? = some copy →
      Version w.posted (heards j) copy.record) :
    Inv { w with copies } { l with copies := heards } :=
  ⟨h.stored, hcopies, h.tasks, h.latest, h.claim, h.posted⟩

theorem Inv.modify (h : Inv w l) (j : ℕ) {f : Copy → Copy}
    (hversion : ∀ copy, Version w.posted (l.copies j) copy.record →
      Version w.posted heard (f copy).record) :
    Inv { w with copies := w.copies.modify j f }
      { l with copies := Function.update l.copies j heard } := by
  refine h.withCopies fun k copy hk ↦ ?_
  rw [List.getElem?_modify, Option.map_eq_map] at hk
  obtain ⟨copy', hcopy, rfl⟩ := Option.map_eq_some_iff.mp hk
  have hold := h.copies k copy' hcopy
  by_cases heq : j = k
  · subst heq
    rw [Function.update_self, if_pos rfl]
    exact hversion copy' hold
  · rw [Function.update_of_ne (Ne.symm heq), if_neg heq]
    exact hold

theorem Inv.modify_same (h : Inv w l) (j : ℕ) {f : Copy → Copy}
    (hversion : ∀ heard copy, Version w.posted heard copy.record →
      Version w.posted heard (f copy).record) :
    Inv { w with copies := w.copies.modify j f } l := by
  have hmodify := h.modify j (hversion (l.copies j))
  rwa [Function.update_eq_self] at hmodify

theorem Inv.tells (h : Inv w l) (i j : ℕ) {mirror : Mirror}
    (htold : mirror.Told w.posted (l.tasks i)) :
    Inv (w.modifyCopy j fun record ↦ mirror.onto record) (l.tells i j mirror) := by
  cases mirror with
  | accepted amount => exact h.modify j fun copy hold ↦ ⟨htold, hold.claim⟩
  | claim txid => exact h.modify j fun copy hold ↦ ⟨hold.quote, htold.symm⟩

theorem Version.agreed {posted : List (ℕ × Bool)} {record : Record} {floor : ℕ}
    {claimAmount : Option ℕ} (h : Version posted heard record)
    (hfloor : record.acceptedQuoteAmount.or claimAmount = some floor) :
    ∃ amount, Quote posted heard.quotes amount ∧ amount.or claimAmount = some floor :=
  ⟨_, h.quote, hfloor⟩

theorem Inv.quote (h : Inv w l) {caller : Option ℕ} {isDefault : Bool} {options : QuoteSwapOptions}
    (hdefault : isDefault = true → options.maxSlippageBps = none ∧
      ∀ floor, options.minAcceptableAmount = some floor → ∃ amount,
        Quote w.posted heard.quotes amount ∧ amount.or w.claimAmount = some floor.toNat) :
    Inv (w.quote caller isDefault options) (l.begins w heard) := by
  unfold World.quote
  split
  · exact h.begins heard
  · split
    · exact h.addTask trivial
    · rename_i floor hfloor
      split
      · exact h.begins heard
      · rename_i heffective
        refine h.addTask fun htrue ↦ ?_
        obtain ⟨hflat, hagreed⟩ := hdefault htrue
        exact ⟨resolveEffectiveFloor_flat hflat heffective, hagreed floor hfloor⟩

/-- What is posted is not below the agreed amount when the floor was that amount. -/
theorem notBelowAgreed {caller : Option ℕ} {isDefault : Bool} {floor effectiveFloor n : ℕ}
    {amount : Number} {outcome : Posted} (h : Inv w l)
    (htask : w.tasks[i]? = some (.quoted caller isDefault floor effectiveFloor))
    (hok : Undisturbed ⟨w, l⟩ (.post i amount outcome))
    (hvalid : validateQuote amount effectiveFloor = .ok n) :
    NotBelowAgreed w.claimAmount (n, isDefault) w.posted := by
  rintro rfl agreed hagreed
  have hall : (l.tasks i).quotes = w.posted.length := hok.2 _ _ _ htask
  obtain ⟨rfl, known, hquote, hfloor⟩ := h.tasks i _ htask rfl
  rw [hquote.eq, hall, quoteAt_length, hagreed] at hfloor
  cases hfloor
  exact le_of_validateQuote hvalid

/-- A quote is posted and answered. The copies of the manager hear of it. -/
theorem Inv.post (h : Inv w l) (hi : w.tasks[i]? = some old)
    {caller : Option ℕ} {n : ℕ} {isDefault : Bool}
    (hbelow : NotBelowAgreed w.claimAmount (n, isDefault) w.posted)
    (ht : t = { (w.noteAcceptedQuote n).setTask i (.records caller n) with
      posted := (n, isDefault) :: w.posted }) : Inv t (l.posts w t i) := by
  have hlt : i < w.tasks.length := (List.getElem?_eq_some_iff.mp hi).1
  have hlength : t.tasks.length = w.tasks.length := by
    rw [ht]
    exact List.length_set
  have hnew : Quote ((n, isDefault) :: w.posted) ((n, isDefault) :: w.posted).length (some n) :=
    ⟨le_rfl, quoteAt_length _ ▸ rfl⟩
  rw [Ledger.posts, hlength, if_neg (Nat.lt_irrefl _), Ledger.goesOn, hlength,
    if_neg (Nat.lt_irrefl _)]
  subst ht
  refine ⟨h.stored.cons _, fun j copy hj ↦ ?_, ?_, .inr (carries_set hlt trivial), h.claim,
    ⟨hbelow, h.posted⟩⟩
  · have hj' : (w.noteAcceptedQuote n).copies[j]? = some copy := hj
    rw [World.noteAcceptedQuote, List.getElem?_map] at hj'
    obtain ⟨copy', hcopy, rfl⟩ := Option.map_eq_some_iff.mp hj'
    have hold := h.copies j copy' hcopy
    simp only [Ledger.notes, hcopy, Option.any_some]
    split
    · exact ⟨hnew, hold.claim⟩
    · exact hold.cons _
  · refine AllTold.set (fun k task hk ↦ (h.tasks k task hk).cons _) ?_
    exact hnew

theorem Inv.land (h : Inv w l) {record : Record} {mirror : Option (ℕ × Mirror)}
    {tasks : List Task} {heards : ℕ → Heard}
    (hi : w.tasks[i]? = some (.writes record mirror)) (hok : Undisturbed ⟨w, l⟩ (.land i))
    (htasks : AllTold w.claimAmount w.posted tasks heards)
    (hcarries : ∀ (k : ℕ) (task : Task), k ≠ i → w.tasks[k]? = some task → task.Stores →
      Carries (l.tasks k).quotes tasks heards) :
    Inv { w with stored := record, firstClaim := w.firstClaim.or record.claimTxid, tasks }
      { l.lands i with tasks := heards } := by
  obtain ⟨hquotes, hclaim⟩ := hok
  obtain ⟨hversion, -⟩ := h.tasks i _ hi
  refine ⟨hversion, h.copies, htasks, ?_, ?_, h.posted⟩
  · change (l.tasks i).quotes = w.posted.length ∨ Carries w.posted.length tasks heards
    obtain hmore | ⟨k, hne, task, hk, hstores, hlast⟩ := hquotes
    · obtain hlast | ⟨k, task, hk, hstores, hlast⟩ := h.latest
      · exact .inl (le_antisymm hversion.quote.le (hlast ▸ hmore))
      · by_cases heq : k = i
        · exact .inl (heq ▸ hlast)
        · exact .inr (hlast ▸ hcarries k task heq hk hstores)
    · have hlast : (l.tasks k).quotes = w.posted.length := hlast
      exact .inr (hlast ▸ hcarries k task hne hk hstores)
  · change (l.tasks i).claim = w.firstClaim.or record.claimTxid
    have hclaim : l.stored.claim = none ∨ (l.tasks i).claim = l.stored.claim := hclaim
    rw [hversion.claim, ← h.claim]
    obtain hnone | hsame := hclaim
    · rw [hnone, Option.none_or]
    · rw [hsame, Option.or_self]

theorem Inv.readsFloor (h : Inv w l) {answered : Bool}
    (hstep : step w (.readFloor i answered) = some t) :
    Inv t (l.hear w t (.readFloor i answered)) := by
  simp only [step] at hstep
  split at hstep
  · rename_i caller options htask
    split at hstep
    · rename_i floor hfloor
      split at hstep <;> cases hstep
      · exact h.endTask htask id _
      · rename_i heffective
        refine h.setTask htask (fun hdefault ↦ ⟨?_, h.stored.agreed hfloor⟩) nofun
        refine resolveEffectiveFloor_flat ?_ heffective
        rw [of_decide_eq_true hdefault]
    · cases hstep
      exact h.endTask htask id _
  · cases hstep

theorem Inv.posts (h : Inv w l) {amount : Number} {outcome : Posted}
    (hok : Undisturbed ⟨w, l⟩ (.post i amount outcome))
    (hstep : step w (.post i amount outcome) = some t) :
    Inv t (l.hear w t (.post i amount outcome)) := by
  simp only [step] at hstep
  split at hstep
  · rename_i caller isDefault floor effectiveFloor htask
    have hended : Inv (w.endTask i) (l.posts w (w.endTask i) i) := by
      have hlt : i < w.tasks.length := (List.getElem?_eq_some_iff.mp htask).1
      rw [Ledger.posts, if_pos (by rw [World.endTask, List.length_eraseIdx_of_lt hlt]; omega)]
      exact h.endTask htask id _
    split at hstep
    · cases hstep
      exact hended
    · cases hstep
      exact hended
    · exact absurd rfl hok.1
    · rename_i hvalid
      cases hstep
      exact h.post htask (notBelowAgreed h htask hok hvalid) rfl
  · cases hstep

/-- The quote that was posted is written over what is read right after. -/
theorem Inv.readsBack (h : Inv w l) (hstep : step w (.readBack i true) = some t) :
    Inv t (l.hear w t (.readBack i true)) := by
  simp only [step] at hstep
  split at hstep
  · rename_i caller amount htask
    cases hstep
    have htold : Quote w.posted (l.tasks i).quotes (some amount) := h.tasks i _ htask
    refine h.setTask htask ⟨⟨htold, h.stored.claim⟩, fun j m hm ↦ ?_⟩ fun _ ↦ ⟨trivial, rfl⟩
    obtain ⟨k, -, hk⟩ := Option.map_eq_some_iff.mp hm
    cases hk
    exact htold
  · cases hstep

/-- A claim is written over what is read, or over the copy where that fails. -/
theorem Inv.readsUpdate (h : Inv w l) {answered : Bool}
    (hstep : step w (.readUpdate i answered) = some t) :
    Inv t (l.hear w t (.readUpdate i answered)) := by
  simp only [step] at hstep
  split at hstep
  · rename_i j delta mirror htask
    obtain ⟨copy, hcopy, rfl⟩ := Option.map_eq_some_iff.mp hstep
    simp only [Ledger.hear, htask]
    have hdelta : delta.claimTxid = (l.tasks i).claim := h.tasks i _ htask
    have hbase : Version w.posted (if answered then l.stored else l.copies j)
        (if answered then w.stored else copy.record) := by
      cases answered with
      | true => exact h.stored
      | false => exact h.copies j copy hcopy
    refine h.setTask htask ⟨⟨hbase.quote, ?_⟩, fun k m hm ↦ ?_⟩ nofun
    · rw [Delta.over, hdelta, hbase.claim]
      rfl
    · split at hm
      · obtain ⟨txid, htxid, hm⟩ := Option.map_eq_some_iff.mp hm
        cases hm
        change (l.tasks i).claim.or _ = some txid
        rw [← hdelta, htxid, Option.some_or]
      · cases hm
  · cases hstep

/-- A write lands, and its task ends or goes on to the mirror. -/
theorem Inv.lands (h : Inv w l) (hok : Undisturbed ⟨w, l⟩ (.land i))
    (hstep : step w (.land i) = some t) : Inv t (l.hear w t (.land i)) := by
  simp only [step] at hstep
  split at hstep
  · rename_i record mirror htask
    have htold := h.tasks i _ htask
    split at hstep <;> cases hstep
    · have hlands := h.land htask hok h.tasks.eraseIdx fun k task hne hk hstores ↦
        carries_eraseIdx hne hk hstores rfl
      change Inv _ ((l.lands i).goesOn w (w.endTask i) i (l.tasks i))
      rw [goesOn_endTask htask]
      exact hlands
    · rename_i j m
      have hmirror : (Task.mirrors j m).Told w.claimAmount w.posted (l.tasks i) :=
        htold.2 j m rfl
      have hlands := h.land htask hok (h.tasks.set hmirror) fun k task hne hk hstores ↦
        ⟨k, task, by rwa [List.getElem?_set_ne (Ne.symm hne)], hstores, by
          rw [Function.update_of_ne hne]⟩
      change Inv _ ((l.lands i).goesOn w (w.setTask i (.mirrors j m)) i (l.tasks i))
      rw [goesOn_setTask]
      exact hlands
  · cases hstep

theorem inv_step {input : Input} (h : Inv w l) (hok : Undisturbed ⟨w, l⟩ input)
    (hstep : step w input = some t) : Inv t (l.hear w t input) := by
  cases input with
  | hold monitored =>
    cases hstep
    exact h.takes monitored h.stored
  | fork j monitored =>
    obtain ⟨copy, hcopy, rfl⟩ := Option.map_eq_some_iff.mp hstep
    exact h.takes monitored (h.copies j copy hcopy)
  | finalize j =>
    cases hstep
    exact h.modify_same j fun _ _ hold ↦ hold
  | status j status =>
    cases hstep
    have hsame : Inv (w.modifyCopy j fun record ↦ { record with status }) l :=
      h.modify_same j fun _ _ hold ↦ ⟨hold.quote, hold.claim⟩
    exact hsame.addTask trivial
  | save j =>
    cases hstep
    exact h.addTask trivial
  | serialise i =>
    simp only [step] at hstep
    split at hstep
    · rename_i j htask
      obtain ⟨copy, hcopy, rfl⟩ := Option.map_eq_some_iff.mp hstep
      simp only [Ledger.hear, htask]
      exact h.setTask htask ⟨h.copies j copy hcopy, nofun⟩ nofun
    · cases hstep
  | quoteSwap options =>
    cases hstep
    refine h.quote fun hdefault ↦ ?_
    rw [of_decide_eq_true hdefault]
    exact ⟨rfl, nofun⟩
  | renegotiate j =>
    obtain ⟨copy, hcopy, rfl⟩ := Option.map_eq_some_iff.mp hstep
    refine h.quote fun _ ↦ ⟨rfl, fun floor hfloor ↦ ?_⟩
    obtain ⟨n, hn, rfl⟩ := Option.map_eq_some_iff.mp hfloor
    exact (h.copies j copy hcopy).agreed hn
  | readFloor i answered => exact h.readsFloor hstep
  | post i amount outcome => exact h.posts hok hstep
  | readBack i answered =>
    obtain rfl : answered = true := hok
    exact h.readsBack hstep
  | claimed j status txid mirror =>
    cases hstep
    exact h.addTask rfl
  | rememberClaim j txid =>
    cases hstep
    exact h.addTask rfl
  | update j status =>
    cases hstep
    exact h.addTask rfl
  | readUpdate i answered => exact h.readsUpdate hstep
  | land i => exact h.lands hok hstep
  | mirror i =>
    simp only [step] at hstep
    split at hstep
    · rename_i j mirror htask
      cases hstep
      simp only [Ledger.hear, htask]
      exact (h.tells i j (h.tasks i _ htask)).endTask htask id _
    · cases hstep

theorem watch_world (s : Watched) (input : Input) :
    (watch s input).map Watched.world = step s.world input := by
  unfold watch
  cases step s.world input <;> rfl

end Step

section Sample

def createdAt (claimAmount : ℕ) : World := .start (some claimAmount) "swap.created"

def undisturbed (s : Watched) : Input → Bool
  | .land i => s.ledger.stored.quotes ≤ (s.ledger.tasks i).quotes &&
      (s.ledger.stored.claim = none || (s.ledger.tasks i).claim = s.ledger.stored.claim)
  | .post i _ outcome => outcome ≠ .lost && (s.ledger.tasks i).quotes = s.world.posted.length
  | .readBack _ answered => answered
  | _ => true

theorem undisturbed_of_check (s : Watched) (input : Input) (h : undisturbed s input = true) :
    Undisturbed s input := by
  cases input with
  | land i =>
    simp only [undisturbed, Bool.and_eq_true, Bool.or_eq_true, decide_eq_true_eq] at h
    exact ⟨.inl h.1, h.2⟩
  | post i amount outcome =>
    simp only [undisturbed, Bool.and_eq_true, decide_eq_true_eq] at h
    exact ⟨h.1, fun _ _ _ _ ↦ h.2⟩
  | readBack i answered => exact h
  | _ => trivial

end Sample

end ArkadeSdk.QuoteRecord
