/-
VerityBackend.Auth.AccountDeletion — what remains of a user who has deleted
the account.

`schema` lists the relations of `schema.prisma`, `deleteAccount` the nine
statements of the transaction. Six tables are emptied of the user where the
schema would restrict or where rows are to go first; cascades take the rest.
The transaction cannot fail for a user who exists, it leaves no reference to
the user, and it touches nothing but what refers to the user, or to a match
or a report that does.
-/
import VerityBackend.Backend.Values
import VerityBackend.Store.References

namespace VerityBackend.Auth

open Store Tables

/-- The models of `schema.prisma`. -/
inductive Model where
  | User
  | FeatureFlag
  | RefreshToken
  | Session
  | Match
  | Message
  | TokenTransaction
  | ModerationEvent
  | ModerationReport
  | ModerationAppeal
  | AnalyticsEvent
  | AnalyticsIngestHourly
  | TelemetryGateSnapshot
  | Block
  | PushToken
  deriving DecidableEq, Repr

/-- The columns with a relation. -/
inductive Column where
  | userId
  | userAId
  | userBId
  | matchId
  | senderId
  | reporterId
  | reportedUserId
  | moderationReportId
  | blockerId
  | blockedId
  deriving DecidableEq, Repr

/-- Where no `onDelete` is declared, a required relation restricts. -/
def schema : List (Relation Model Column) :=
  [⟨.RefreshToken, .userId, .User, .cascade⟩,
    ⟨.Session, .userAId, .User, .restrict⟩,
    ⟨.Session, .userBId, .User, .restrict⟩,
    ⟨.Match, .userAId, .User, .restrict⟩,
    ⟨.Match, .userBId, .User, .restrict⟩,
    ⟨.Message, .matchId, .Match, .cascade⟩,
    ⟨.Message, .senderId, .User, .cascade⟩,
    ⟨.TokenTransaction, .userId, .User, .restrict⟩,
    ⟨.ModerationEvent, .userId, .User, .restrict⟩,
    ⟨.ModerationReport, .reporterId, .User, .cascade⟩,
    ⟨.ModerationReport, .reportedUserId, .User, .cascade⟩,
    ⟨.ModerationAppeal, .userId, .User, .cascade⟩,
    ⟨.ModerationAppeal, .moderationReportId, .ModerationReport, .setNull⟩,
    ⟨.Block, .blockerId, .User, .cascade⟩,
    ⟨.Block, .blockedId, .User, .cascade⟩,
    ⟨.PushToken, .userId, .User, .cascade⟩]

/-- No cascade is followed by another one. -/
def cascadeDepth : Nat := 1

theorem schema_layered : Layered schema cascadeDepth := by
  refine ⟨fun m => if m = .User ∨ m = .Match then 0 else 1, fun m => ?_, by decide⟩
  dsimp only
  split <;> decide

/-- The rows of the database; `D` stands for their other columns. -/
abbrev Database (D : Type) := Tables Model Column UserId D

variable {D : Type}

/-- `where: { OR: [{ c: userId }, …] }`. -/
def mentions (userId : UserId) (columns : List Column) (r : Row Column UserId D) : Bool :=
  columns.any fun c => r.refs c = some userId

/-- `AuthService.deleteAccount`: the statements of one transaction. -/
def deleteAccount (userId : UserId) (db : Database D) : Except DeleteError (Database D) := do
  let tx ← db.deleteMany schema cascadeDepth .RefreshToken (mentions userId [.userId])
  let tx ← tx.deleteMany schema cascadeDepth .PushToken (mentions userId [.userId])
  let tx ← tx.deleteMany schema cascadeDepth .TokenTransaction (mentions userId [.userId])
  let tx ← tx.deleteMany schema cascadeDepth .ModerationEvent (mentions userId [.userId])
  let tx ← tx.deleteMany schema cascadeDepth .ModerationReport
    (mentions userId [.reporterId, .reportedUserId])
  let tx ← tx.deleteMany schema cascadeDepth .Message (mentions userId [.senderId])
  let tx ← tx.deleteMany schema cascadeDepth .Session (mentions userId [.userAId, .userBId])
  let tx ← tx.deleteMany schema cascadeDepth .Match (mentions userId [.userAId, .userBId])
  tx.deleteOne schema cascadeDepth .User userId

/-! ## Statement by statement -/

section Statements

variable {u : UserId} {t t' t'' : Database D} {m : Model} {columns : List Column}
  {cleared : List (Model × Column)}

/-- After some statements: nothing but what depends on the user has gone, and
these columns mention the user no more. -/
structure Partway (u : UserId) (t t' : Database D) (cleared : List (Model × Column)) : Prop where
  erases : Erases schema .User u t t'
  present : (∃ r ∈ t.rows .User, r.key = u) → ∃ r ∈ t'.rows .User, r.key = u
  cleared : ∀ mc ∈ cleared, ∀ r ∈ t'.rows mc.1, r.refs mc.2 ≠ some u

/-- Columns of references to users. -/
def UserColumns (m : Model) (columns : List Column) : Prop :=
  ∀ c ∈ columns, ∃ rel ∈ schema, rel.child = m ∧ rel.column = c ∧ rel.parent = .User

instance (m : Model) (columns : List Column) : Decidable (UserColumns m columns) :=
  inferInstanceAs (Decidable (∀ c ∈ columns, ∃ rel ∈ schema, _))

theorem dependsOn_of_mentions (hcolumns : UserColumns m columns) {r : Row Column UserId D}
    (hr : r ∈ t.rows m) (h : mentions u columns r = true) : DependsOn schema t .User u m r.key := by
  obtain ⟨c, hc, hrefs⟩ := List.any_eq_true.mp h
  obtain ⟨rel, hrel, rfl, rfl, huser⟩ := hcolumns c hc
  refine .refers hrel hr (by simpa using hrefs) ?_
  rw [huser]
  exact .self

/-- No statement but the last deletes a user. -/
theorem not_doomed_user (hm : m ≠ .User) {p : Row Column UserId D → Bool} {k : UserId} :
    ¬Doomed schema t m p .User k := by
  have hchild : ∀ rel ∈ schema, rel.child ≠ .User := by decide
  intro h
  generalize hmodel : Model.User = m' at h
  cases h with
  | selected => exact hm hmodel.symm
  | cascade hrel => exact hchild _ hrel hmodel.symm

/-- **Step lemma.** One of the statements before the last. -/
theorem Partway.deleteMany (h : Partway u t t' cleared) (m : Model) (columns : List Column)
    (hm : m ≠ .User) (hcolumns : UserColumns m columns) :
    ∃ t'', t'.deleteMany schema cascadeDepth m (mentions u columns) = .ok t'' ∧
      Partway u t t'' (cleared ++ columns.map (m, ·)) := by
  have hrestrict : ∀ rel ∈ schema, rel.onDelete = .restrict → rel.parent = .User := by decide
  obtain ⟨t'', ht''⟩ : ∃ t'', t'.deleteMany schema cascadeDepth m (mentions u columns) = .ok t'' := by
    refine deleteMany_ok schema_layered fun rel hrel hdelete _ _ k _ hdoomed => ?_
    rw [hrestrict rel hrel hdelete] at hdoomed
    exact not_doomed_user hm hdoomed
  have herases : Erases schema .User u t' t'' :=
    deleteMany_erases schema_layered (fun _ hr => dependsOn_of_mentions hcolumns hr) ht''
  refine ⟨t'', ht'', h.erases.trans herases, fun hexists => ?_, fun mc hmc r'' hr'' hrefs => ?_⟩
  · obtain ⟨r', hr', hkey⟩ := h.present hexists
    obtain ⟨r'', hr'', hkey'⟩ := deleteMany_kept schema_layered ht'' hr' (not_doomed_user hm)
    exact ⟨r'', hr'', hkey'.trans hkey⟩
  rcases List.mem_append.mp hmc with hmc | hmc
  · -- what has been cleared stays so
    obtain ⟨r', hr', -, -, hsame⟩ := herases.trims mc.1 r'' hr''
    rcases hsame mc.2 with heq | ⟨hnone, -⟩
    · exact h.cleared mc hmc r' hr' (heq ▸ hrefs)
    · rw [hnone] at hrefs
      cases hrefs
  · obtain ⟨c, hc, rfl⟩ := List.mem_map.mp hmc
    obtain ⟨r', -, hnot, -, hsame⟩ := deleteMany_left schema_layered ht'' hr''
    rcases hsame c with heq | ⟨hnone, -⟩
    · have hmentions : mentions u columns r' = true :=
        List.any_eq_true.mpr ⟨c, hc, by simpa using heq ▸ hrefs⟩
      rw [hnot] at hmentions
      cases hmentions
    · rw [hnone] at hrefs
      cases hrefs

/-- The last statement: by now nothing restricts it. -/
theorem Partway.deleteUser (h : Partway u t t' cleared) (hexists : ∃ r ∈ t'.rows .User, r.key = u)
    (hcleared : ∀ rel ∈ schema, rel.onDelete = .restrict → (rel.child, rel.column) ∈ cleared) :
    ∃ t'', t'.deleteOne schema cascadeDepth .User u = .ok t'' ∧ Erases schema .User u t t'' ∧
      ∀ r ∈ t''.rows .User, r.key ≠ u := by
  have hchild : ∀ rel ∈ schema, rel.child ≠ .User := by decide
  have hrestrict : ∀ rel ∈ schema, rel.onDelete = .restrict → rel.parent = .User := by decide
  have hself : ∀ {k}, Doomed schema t' .User (·.key = u) .User k → k = u := by
    intro k hdoomed
    generalize hmodel : Model.User = m' at hdoomed
    cases hdoomed with
    | selected _ hp => simpa using hp
    | cascade hrel => exact absurd hmodel.symm (hchild _ hrel)
  obtain ⟨t'', ht''⟩ : ∃ t'', t'.deleteMany schema cascadeDepth .User (·.key = u) = .ok t'' := by
    refine deleteMany_ok schema_layered fun rel hrel hdelete r hr k hrefs hdoomed => ?_
    rw [hrestrict rel hrel hdelete] at hdoomed
    obtain rfl := hself hdoomed
    exact h.cleared _ (hcleared rel hrel hdelete) r hr hrefs
  have herases : Erases schema .User u t' t'' :=
    deleteMany_erases schema_layered (fun r _ hr => by
      obtain rfl : r.key = u := by simpa using hr
      exact .self) ht''
  refine ⟨t'', ?_, h.erases.trans herases, fun r'' hr'' hkey => ?_⟩
  · obtain ⟨r, hr, rfl⟩ := hexists
    exact (if_pos (List.any_eq_true.mpr ⟨r, hr, by simp⟩)).trans ht''
  · obtain ⟨r, -, hnot, hsame, -⟩ := deleteMany_left schema_layered ht'' hr''
    rw [← hsame, hkey] at hnot
    simp at hnot

end Statements

/-! ## The transaction -/

/-- The row refers to the user. -/
def ReferencesUser (u : UserId) (m : Model) (r : Row Column UserId D) : Prop :=
  ∃ rel ∈ schema, rel.child = m ∧ rel.parent = .User ∧ r.refs rel.column = some u

/-- The row is that of the user, or refers to the user, or to a match or a
report that does. -/
def Concerns (u : UserId) (t : Database D) (m : Model) (r : Row Column UserId D) : Prop :=
  (m = .User ∧ r.key = u) ∨ ReferencesUser u m r ∨
    ∃ rel ∈ schema, rel.child = m ∧ (rel.parent = .Match ∨ rel.parent = .ModerationReport) ∧
      ∃ r' ∈ t.rows rel.parent, r.refs rel.column = some r'.key ∧ ReferencesUser u rel.parent r'

/-- The account is deleted: all foreign keys hold, nothing refers to the
user, what does not concern the user is unchanged, and what is there was
there before, but for the report of an appeal. -/
structure Deleted (u : UserId) (t t' : Database D) : Prop where
  satisfies : t'.Satisfies schema
  gone : ∀ r ∈ t'.rows .User, r.key ≠ u
  unreferenced : ∀ m, ∀ r ∈ t'.rows m, ¬ReferencesUser u m r
  unchanged : ∀ m, ∀ r ∈ t.rows m, ¬Concerns u t m r → r ∈ t'.rows m
  from_before : ∀ m, ∀ r' ∈ t'.rows m, ∃ r ∈ t.rows m, r'.key = r.key ∧ r'.data = r.data ∧
    ∀ c, r'.refs c = r.refs c ∨
      r'.refs c = none ∧ m = .ModerationAppeal ∧ c = .moderationReportId

/-- The only tables others refer to are users, matches and reports. -/
theorem concerns_of_dependsOn {u : UserId} {t : Database D} {m : Model} {r : Row Column UserId D}
    (hr : r ∈ t.rows m) (h : DependsOn schema t .User u m r.key) : Concerns u t m r := by
  have hparents : ∀ rel ∈ schema,
      rel.parent = .User ∨ rel.parent = .Match ∨ rel.parent = .ModerationReport := by decide
  have hchild : ∀ rel ∈ schema, rel.child ≠ .User := by decide
  -- a user depends on no other row
  have hself : ∀ {k}, DependsOn schema t .User u .User k → k = u := by
    intro k hdep
    generalize hmodel : Model.User = m' at hdep
    cases hdep with
    | self => rfl
    | refers hrel => exact absurd hmodel.symm (hchild _ hrel)
  have hdirect : ∀ {rel : Relation Model Column} {r : Row Column UserId D} {k : UserId}, rel ∈ schema →
      rel.parent = .User → r.refs rel.column = some k → DependsOn schema t .User u rel.parent k →
        ReferencesUser u rel.child r := by
    intro rel r k hrel huser hrefs hdep
    rw [huser] at hdep
    obtain rfl := hself hdep
    exact ⟨rel, hrel, rfl, huser, hrefs⟩
  have hgrandchild : ∀ rel ∈ schema, rel.child = .Match ∨ rel.child = .ModerationReport →
      rel.parent = .User := by decide
  generalize hkey : r.key = k at h
  cases h with
  | self => exact .inl ⟨rfl, hkey⟩
  | @refers rel r₁ k hrel hr₁ hrefs hdep =>
      obtain rfl := eq_of_key hr hr₁ hkey
      rcases hparents rel hrel with huser | hmatch
      · exact .inr (.inl (hdirect hrel huser hrefs hdep))
      · refine .inr (.inr ⟨rel, hrel, rfl, hmatch, ?_⟩)
        -- the match or the report in between
        generalize hmodel : rel.parent = m' at hdep hmatch
        cases hdep with
        | self => rcases hmatch with h | h <;> cases h
        | @refers rel' r' k' hrel' hr' hrefs' hdep' =>
            exact ⟨r', hr', hrefs, hdirect hrel' (hgrandchild rel' hrel' hmatch) hrefs' hdep'⟩

/-- **Deleting an account is complete and exact.** In every state of the
database in which the foreign keys hold, for every user who exists. -/
theorem deleteAccount_exact (t : Database D) (hkeys : t.Satisfies schema) (u : UserId)
    (hexists : ∃ r ∈ t.rows .User, r.key = u) :
    ∃ t', deleteAccount u t = .ok t' ∧ Deleted u t t' := by
  have hstart : Partway u t t [] :=
    ⟨⟨id, fun m r hr => ⟨r, hr, rfl, rfl, fun _ => .inl rfl⟩, fun _ _ hr _ => hr⟩, id, nofun⟩
  obtain ⟨t₁, h₁, hp₁⟩ := hstart.deleteMany .RefreshToken [.userId] (by decide) (by decide)
  obtain ⟨t₂, h₂, hp₂⟩ := hp₁.deleteMany .PushToken [.userId] (by decide) (by decide)
  obtain ⟨t₃, h₃, hp₃⟩ := hp₂.deleteMany .TokenTransaction [.userId] (by decide) (by decide)
  obtain ⟨t₄, h₄, hp₄⟩ := hp₃.deleteMany .ModerationEvent [.userId] (by decide) (by decide)
  obtain ⟨t₅, h₅, hp₅⟩ :=
    hp₄.deleteMany .ModerationReport [.reporterId, .reportedUserId] (by decide) (by decide)
  obtain ⟨t₆, h₆, hp₆⟩ := hp₅.deleteMany .Message [.senderId] (by decide) (by decide)
  obtain ⟨t₇, h₇, hp₇⟩ := hp₆.deleteMany .Session [.userAId, .userBId] (by decide) (by decide)
  obtain ⟨t₈, h₈, hp₈⟩ := hp₇.deleteMany .Match [.userAId, .userBId] (by decide) (by decide)
  obtain ⟨t', h', herases, hgone⟩ := hp₈.deleteUser (hp₈.present hexists) (by decide)
  refine ⟨t', ?_, ?_⟩
  · simp only [deleteAccount, h₁, h₂, h₃, h₄, h₅, h₆, h₇, h₈, h', bind, Except.bind]
  · have hsatisfies := herases.satisfies hkeys
    refine ⟨hsatisfies, hgone, ?_, ?_, fun m r' hr' => ?_⟩
    · rintro _ r hr ⟨rel, hrel, rfl, huser, hrefs⟩
      obtain ⟨r', hr', hkey⟩ := hsatisfies rel hrel r hr u hrefs
      exact hgone r' (huser ▸ hr') hkey
    · exact fun m r hr hnot => herases.spares m r hr fun hdep => hnot (concerns_of_dependsOn hr hdep)
    · have hclearable : ∀ rel ∈ schema, rel.onDelete = .setNull →
          rel.child = .ModerationAppeal ∧ rel.column = .moderationReportId := by decide
      obtain ⟨r, hr, hkey, hdata, hrefs⟩ := herases.trims m r' hr'
      refine ⟨r, hr, hkey, hdata, fun c => (hrefs c).imp_right ?_⟩
      rintro ⟨hnone, rel, hrel, rfl, rfl, hdelete⟩
      exact ⟨hnone, hclearable rel hrel hdelete⟩

/-- A row that refers to these rows. -/
def referring (key : UserId) (refs : List (Column × UserId)) : Row Column UserId Unit :=
  ⟨key, fun c => refs.lookup c, ()⟩

/-- Ann and Bob are matched and write to each other; Bob has reported Ann and
appeals. -/
def annAndBob : Database Unit where
  rows
    | .User => [referring "ann" [], referring "bob" []]
    | .Match => [referring "match" [(.userAId, "ann"), (.userBId, "bob")]]
    | .Message => [referring "hello" [(.matchId, "match"), (.senderId, "ann")],
        referring "hi" [(.matchId, "match"), (.senderId, "bob")]]
    | .ModerationReport => [referring "report" [(.reporterId, "bob"), (.reportedUserId, "ann")]]
    | .ModerationAppeal =>
        [referring "appeal" [(.userId, "bob"), (.moderationReportId, "report")]]
    | .TokenTransaction => [referring "paid" [(.userId, "ann")], referring "spent" [(.userId, "bob")]]
    | _ => []
  unique m := by cases m <;> decide

theorem deleteAccount_exact_ann : ∃ t', deleteAccount "ann" annAndBob = .ok t' ∧ Deleted "ann" annAndBob t' :=
  deleteAccount_exact annAndBob (by decide) "ann" ⟨referring "ann" [], List.mem_cons_self, rfl⟩

/-- Bob's appeal stays, and refers to no report any more; his message goes
with the match. -/
example : (deleteAccount "ann" annAndBob).toOption.map (fun t => ((t.rows .ModerationAppeal).map fun r =>
    (r.key, r.refs .userId, r.refs .moderationReportId), (t.rows .Message).map (·.key))) =
      some ([("appeal", some "bob", none)], []) := by decide +kernel

end VerityBackend.Auth
