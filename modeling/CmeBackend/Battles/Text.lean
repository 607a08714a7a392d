import CmeBackend.Battles.Manager

/-!
# The report as a text in a query

`updateDb` puts the text of the report between two single quotes. `JSON.stringify` does not escape
single quotes, and every string of every unit sent is in the report.

* `QuoteFree`: no string and no name of a property in a value has a single quote.
* `Contained`: the query with the report is read as it is meant, and changes what it is meant to.
* `contained_iff`: for the battle of an accepted attack this is so exactly if the entries of its
  `unitSent` are free of quotes. The keys are names of units, and the units of the defender come from
  the database.
-/

namespace Cme.Battles

open Js GameRules Attacks

variable {C : Catalog}

/-- No string and no name of a property has a single quote, at any depth. -/
def QuoteFree (v : Json) : Prop := ∀ s ∈ v.strings, '\'' ∉ s.toList

theorem quoteFree_obj {fs : Fields} :
    QuoteFree (.obj fs) ↔ ∀ f ∈ fs, '\'' ∉ f.1.toList ∧ QuoteFree f.2 := by
  simp only [QuoteFree, Json.strings, Json.mem_stringsOfMembers]
  constructor
  · intro h f hf
    exact ⟨h f.1 ⟨f, hf, .inl rfl⟩, fun s hs => h s ⟨f, hf, .inr hs⟩⟩
  · rintro h s ⟨f, hf, rfl | hs⟩
    · exact (h f hf).1
    · exact (h f hf).2 s hs

theorem quoteFree_num (x : Number) : QuoteFree (.num x) := by simp [QuoteFree, Json.strings]

theorem quoteFree_str {s : String} : QuoteFree (.str s) ↔ '\'' ∉ s.toList := by
  simp [QuoteFree, Json.strings]

theorem quoteFree_render {v : Json} : '\'' ∉ v.render ↔ QuoteFree v := by
  rw [Json.apostrophe_mem_render]
  simp [QuoteFree]

/-- Writing and parsing a value keeps its strings. -/
theorem quoteFree_roundTripMembers {fs : Fields} :
    QuoteFree (.obj (Json.roundTripMembers fs)) ↔ QuoteFree (.obj fs) := by
  have := Json.strings_roundTrip (.obj fs)
  rw [Json.roundTrip] at this
  simp only [QuoteFree, this]

theorem QuoteFree.set {v w : Json} {name : String} (hv : QuoteFree v) (hw : QuoteFree w)
    (hname : '\'' ∉ name.toList) : QuoteFree (v.set name w) := by
  cases v with
  | obj fs =>
    apply quoteFree_obj.2
    intro f hf
    rcases Fields.mem_set hf with rfl | hf
    · exact ⟨hname, hw⟩
    · exact quoteFree_obj.1 hv f hf
  | _ => exact hv

/-! ## The parts of the report -/

theorem apostrophe_not_mem_toString (n : ℕ) : '\'' ∉ (toString n).toList := by
  rw [Nat.toString_eq_repr, Nat.toList_repr]
  exact Number.apostrophe_not_mem_toDigits n

/-- The casualties have the strings of the units. -/
theorem QuoteFree.casualtiesOf {ratio : Number} {unit c : Json} (h : QuoteFree unit)
    (hc : casualtiesOf ratio unit = some c) : QuoteFree c := by
  obtain ⟨n, -, rfl⟩ := casualtiesOf_eq_some hc
  split
  · exact h.set (quoteFree_num _) (by decide)
  · exact h

theorem QuoteFree.computeCasualtiesForTeam {ratio : Number} {units cs : Fields}
    (h : QuoteFree (.obj units)) (hc : computeCasualtiesForTeam units ratio = some cs) :
    QuoteFree (.obj cs) := by
  apply quoteFree_obj.2
  intro y hy
  obtain ⟨x, hx, hname, hxy⟩ := Fields.mem_mapValues? hc hy
  obtain ⟨hkey, hunit⟩ := quoteFree_obj.1 h x hx
  exact ⟨hname ▸ hkey, hunit.casualtiesOf hxy⟩

/-- The report has the strings of the units, if they are of two villages. -/
theorem quoteFree_json {report : AttackReport}
    (hne : report.attackerVillageId ≠ report.defenderVillageId)
    (hdefender : QuoteFree (.obj report.defenderUnits))
    (hcasualties : QuoteFree (.obj report.attackerUnits) → QuoteFree (.obj report.attackerCasualties))
    (hdefenderCasualties : QuoteFree (.obj report.defenderCasualties)) :
    QuoteFree report.json ↔ QuoteFree (.obj report.attackerUnits) := by
  have hby : ∀ a d : Json, QuoteFree (report.byVillage a d) ↔ QuoteFree a ∧ QuoteFree d := by
    intro a d
    unfold AttackReport.byVillage
    split
    · simp [quoteFree_obj, Number.apostrophe_not_mem_toDigits]
    · have hlt : report.defenderVillageId < report.attackerVillageId := by omega
      simp [quoteFree_obj, Number.apostrophe_not_mem_toDigits, hlt, and_comm]
  have hinfo : ∀ v, QuoteFree (.obj [("casualtiesInfoByUnitTypeId", v)]) ↔ QuoteFree v := by
    intro v
    simp [quoteFree_obj]
  have hjson : QuoteFree report.json ↔
      (QuoteFree (.obj report.attackerUnits) ∧ QuoteFree (.obj report.defenderUnits)) ∧
        QuoteFree (.obj report.attackerCasualties) ∧ QuoteFree (.obj report.defenderCasualties) := by
    rw [AttackReport.json, quoteFree_obj]
    simp only [List.forall_mem_cons, hby, hinfo]
    simp
  rw [hjson]
  exact ⟨fun h => h.1.1, fun h => ⟨⟨h, hdefender⟩, hcasualties h, hdefenderCasualties⟩⟩

/-! ## The units of the defender -/

theorem mem_keyByType {rows : List (VillageResourceType C)} {u : String × Json} {units : Fields}
    (h : u ∈ rows.foldl (fun units r => units.set r.resourceType.type (unitEntry r)) units) :
    u ∈ units ∨ ∃ r ∈ rows, u = (r.resourceType.type, unitEntry r) := by
  induction rows generalizing units with
  | nil => exact .inl h
  | cons r rest ih =>
    rcases ih h with h | ⟨r', hr', rfl⟩
    · rcases Fields.mem_set h with rfl | h
      · exact .inr ⟨r, List.mem_cons_self, rfl⟩
      · exact .inl h
    · exact .inr ⟨r', List.mem_cons_of_mem _ hr', rfl⟩

/-- The units of the defender are entries of rows, under the names of units. -/
theorem mem_defenderUnits {d : Db C} {v : ℕ} {u : String × Json} (h : u ∈ defenderUnits d v) :
    ∃ r ∈ d.rowsOf v, ∃ m : MilitaryResource, r.resourceType.type = m.name ∧
      u = (m.name, unitEntry r) := by
  rcases mem_keyByType h with h | ⟨r, hr, rfl⟩
  · cases h
  · obtain ⟨hrow, hunit⟩ := List.mem_filter.1 hr
    obtain ⟨m, hm⟩ := Option.isSome_iff_exists.1 hunit
    have hname := MilitaryResource.ofName?_eq_some.1 hm
    exact ⟨r, hrow, m, hname.symm, by rw [hname]⟩

theorem quoteFree_defenderUnits (d : Db C) (v : ℕ) : QuoteFree (.obj (defenderUnits d v)) := by
  apply quoteFree_obj.2
  intro u hu
  obtain ⟨r, -, m, hm, rfl⟩ := mem_defenderUnits hu
  refine ⟨m.apostrophe_not_mem_name, ?_⟩
  simp [unitEntry, quoteFree_obj, quoteFree_num, quoteFree_str, hm, m.apostrophe_not_mem_name]

/-- The counts of the defender's units are numbers. -/
theorem isSome_unitCount?_defenderUnits (d : Db C) (v : ℕ) :
    ∀ u ∈ defenderUnits d v, (unitCount? u.2).isSome := by
  intro u hu
  obtain ⟨r, -, m, -, rfl⟩ := mem_defenderUnits hu
  rfl

/-- The casualties of the defender are numbers under ids that are numbers. -/
theorem casualties_defenderUnits {d : Db C} {v : ℕ} {ratio : Number} {cs : Fields}
    (h : computeCasualtiesForTeam (defenderUnits d v) ratio = some cs) {c : String × Json}
    (hc : c ∈ cs) :
    ∃ id count, c.2.property? "unitTypeId" = some (some (.num id)) ∧
      c.2.property? "count" = some (some (.num count)) := by
  obtain ⟨u, hu, -, hcu⟩ := Fields.mem_mapValues? h hc
  obtain ⟨r, -, m, -, rfl⟩ := mem_defenderUnits hu
  obtain ⟨n, -, hcu⟩ := casualtiesOf_eq_some hcu
  rw [hcu]
  split
  · exact ⟨_, _, rfl, rfl⟩
  · exact ⟨_, _, rfl, rfl⟩

/-- The values of the statement for the casualties have no quote. -/
theorem updateValuesFrom_quoteFree {cs : Fields} (hcs : ∀ c ∈ cs, ∃ id count,
      c.2.property? "unitTypeId" = some (some (.num id)) ∧
      c.2.property? "count" = some (some (.num count))) {sep : List Char} (hsep : '\'' ∉ sep) :
    ∃ values, updateValuesFrom sep cs = some values ∧ '\'' ∉ values := by
  induction cs generalizing sep with
  | nil => exact ⟨[], rfl, List.not_mem_nil⟩
  | cons c rest ih =>
    obtain ⟨name, entry⟩ := c
    obtain ⟨⟨id, count, hid, hcount⟩, hrest⟩ := List.forall_mem_cons.1 hcs
    obtain ⟨values, hvalues, hquote⟩ := @ih hrest [','] (by simp)
    refine ⟨sep ++ '(' :: (id.text ++ ',' :: (count.text ++ ')' :: values)), ?_, ?_⟩
    · simp only [updateValuesFrom, hid, hcount, hvalues]
      rfl
    · simp [hsep, hquote, Number.apostrophe_not_mem_text]

/-! ## The query -/

/-- Around the literal the query has no quote. -/
theorem reportQueryPrefix_quoteFree {report : AttackReport} {values : List Char}
    (h : getUpdateValuesAsSql report.defenderCasualties = some values) (hquote : '\'' ∉ values) :
    ∃ start, reportQueryPrefix report = some start ∧ '\'' ∉ start := by
  unfold reportQueryPrefix
  rw [h]
  refine ⟨_, rfl, ?_⟩
  split
  · decide
  · simp only [List.mem_append, not_or]
    have hvillage := apostrophe_not_mem_toString report.defenderVillageId
    refine ⟨⟨⟨⟨⟨⟨?_, ?_⟩, hquote⟩, ?_⟩, hvillage⟩, ?_⟩, ?_⟩ <;> decide +kernel

theorem reportQuerySuffix_quoteFree (report : AttackReport) :
    '\'' ∉ reportQuerySuffix report := by
  have hid := apostrophe_not_mem_toString report.attackId
  have hflag : '\'' ∉ (if report.WonByAttacker then "FALSE" else "TRUE").toList := by
    split <;> decide
  unfold reportQuerySuffix
  rw [List.mem_append, List.mem_append, List.mem_append, List.mem_append]
  rintro ((((h | h) | h) | h) | h)
  · exact absurd h (by decide +kernel)
  · exact hflag h
  · exact absurd h (by decide +kernel)
  · exact hid h
  · exact absurd h (by decide +kernel)

/-- The query is read as it is meant exactly if the text of the report has no quote. -/
theorem readAsMeant_iff {report : AttackReport} {values : List Char}
    (h : getUpdateValuesAsSql report.defenderCasualties = some values) (hquote : '\'' ∉ values) :
    ReadAsMeant report ↔ '\'' ∉ reportText report := by
  obtain ⟨start, hstart, hfree⟩ := reportQueryPrefix_quoteFree h hquote
  have hquery : (reportQuery report).bind Sql.lex =
      Sql.lex (start ++ '\'' :: (reportText report ++ '\'' :: reportQuerySuffix report)) := by
    rw [reportQuery, hstart]
    rfl
  have htokens : reportTokens report = some (start.map .other ++ .literal (reportText report) ::
      (reportQuerySuffix report).map .other) := by
    rw [reportTokens, hstart]
    rfl
  rw [ReadAsMeant, hquery, htokens, Sql.lex_splice hfree (reportQuerySuffix_quoteFree report)]
  simp

/-- What the query is meant to change: three columns of the attack, and counts of the defender. -/
structure ChangesOnlyReport (d d' : Db C) (report : AttackReport) : Prop where
  villages : d'.villages = d.villages
  attacks : ∀ id, d'.attacks.get? id = (d.attacks.get? id).map fun a =>
    if a.id = report.attackId then report.store a else a
  rows : ∀ v ≠ report.defenderVillageId, d'.rowsOf v = d.rowsOf v

theorem execReportQuery_eq_some {d d' : Db C} {report : AttackReport}
    (h : execReportQuery d report = some d') :
    ReadAsMeant report ∧ ∃ casualties, sqlValues? report.defenderCasualties = some casualties ∧
      d' = (d.addToCounts report.defenderVillageId (negated casualties)).updateAttack report.attackId
        report.store := by
  unfold execReportQuery at h
  split at h
  · next hread =>
    obtain ⟨casualties, hcasualties, h⟩ := Option.bind_eq_some_iff.1 h
    exact ⟨hread, casualties, hcasualties, (Option.some.inj h).symm⟩
  · cases h

theorem changesOnlyReport {d d' : Db C} {report : AttackReport}
    (h : execReportQuery d report = some d') : ChangesOnlyReport d d' report := by
  obtain ⟨-, casualties, -, rfl⟩ := execReportQuery_eq_some h
  refine ⟨rfl, fun id => ?_, fun v hv => ?_⟩
  · exact @Table.get?_update _ _ d.attacks report.attackId report.store (fun _ => rfl) id
  · show (d.addToCounts report.defenderVillageId (negated casualties)).rowsOf v = d.rowsOf v
    exact Db.rowsOf_addToCounts_of_ne hv

/-- The query with a report stays what it is: its text is one literal without a quote in it, the
database reads it as it is meant, and it changes nothing else. -/
structure Contained (C : Catalog) (report : AttackReport) : Prop where
  quoteFree : '\'' ∉ reportText report
  readAsMeant : ReadAsMeant report
  changes : ∀ d d' : Db C, execReportQuery d report = some d' → ChangesOnlyReport d d' report

/-- The counts of the units of an accepted attack convert, also after the round trip. -/
theorem isSome_unitCount?_sent {M : Math} {dev : Bool} {c : Clock} {d : Db C}
    {dto : CreateAttackDto} {dep : Departure C} (h : create M dev c d dto = .ok dep) :
    ∀ u ∈ (parsedAttack dep.token).attackerUnitsInfoByType, (unitCount? u.2).isSome := by
  obtain ⟨_, _, _, -, -, -, havailable, rfl⟩ := create_eq_ok h
  intro u hu
  have hmem : u ∈ Json.roundTripMembers dto.keptUnits := hu
  rw [Json.roundTripMembers_eq_map] at hmem
  obtain ⟨v, hv, rfl⟩ := List.mem_map.1 hmem
  obtain ⟨t, n, m, hav⟩ := havailable v hv
  obtain ⟨fs, hfs⟩ := Json.eq_obj_of_get hav.unitTypeId
  have hcount := hav.count
  rw [hfs] at hcount ⊢
  show (Json.toNumber? ((Json.roundTripMembers fs).lookup "count")).isSome
  rw [Json.lookup_roundTripMembers, Json.isSome_toNumber?_roundTrip]
  exact Option.isSome_iff_exists.2 ⟨n, hcount⟩

/-- The report of the battle of an accepted attack is about the units that the filter left. -/
theorem battleReport_sent {M : Math} {dev : Bool} {c : Clock} {d d' : Db C} {dto : CreateAttackDto}
    {dep : Departure C} {report : AttackReport} (h : create M dev c d dto = .ok dep)
    (hreport : battleReport M d' (parsedAttack dep.token) = some report) :
    report.attackerUnits = Json.roundTripMembers dto.keptUnits ∧
      report.attackerVillageId = dto.attackerVillageId ∧
      report.defenderVillageId = dto.defenderVillageId := by
  obtain ⟨attackerVillage, defenderVillage, _, ha, hd, -, -, rfl⟩ := create_eq_ok h
  obtain ⟨-, -, hav, hdv, hunits, -, -⟩ := generateAttackReport_eq_some hreport
  exact ⟨hunits, hav.trans ha, hdv.trans hd⟩

/-- The entries that the filter leaves are free of quotes if their values are: the keys are names of
units. -/
theorem quoteFree_keptUnits {M : Math} {dev : Bool} {c : Clock} {d : Db C} {dto : CreateAttackDto}
    {dep : Departure C} (h : create M dev c d dto = .ok dep) :
    QuoteFree (.obj dto.keptUnits) ↔
      ∀ u ∈ dto.unitSent.entries, isKept u → QuoteFree u.2 := by
  obtain ⟨_, _, _, -, -, -, havailable, -⟩ := create_eq_ok h
  rw [quoteFree_obj]
  constructor
  · intro hfree u hu hkept
    exact (hfree u (List.mem_filter.2 ⟨hu, hkept⟩)).2
  · intro hfree u hu
    obtain ⟨t, n, m, hav⟩ := havailable u hu
    exact ⟨hav.name ▸ m.apostrophe_not_mem_name,
      hfree u (List.mem_filter.1 hu).1 (List.mem_filter.1 hu).2⟩

/-- The battle of an accepted attack has a report. -/
theorem exists_battleReport {M : Math} {dev : Bool} {c : Clock} {d : Db C} {dto : CreateAttackDto}
    {dep : Departure C} (h : create M dev c d dto = .ok dep) (d' : Db C) :
    ∃ report, battleReport M d' (parsedAttack dep.token) = some report :=
  exists_generateAttackReport dep.token.attackId dep.token.travelTime dep.token.attackerVillageId
    dep.token.defenderVillageId (unitsInfo C) (isSome_unitCount?_sent h)
    (isSome_unitCount?_defenderUnits d' dep.token.defenderVillageId)

/-- The query with the report is contained exactly if the units that were sent are free of quotes. -/
theorem contained_iff_quoteFree {M : Math} {dev : Bool} {c : Clock} {d d' : Db C}
    {dto : CreateAttackDto} {dep : Departure C} {report : AttackReport}
    (h : create M dev c d dto = .ok dep)
    (hreport : battleReport M d' (parsedAttack dep.token) = some report) :
    Contained C report ↔ QuoteFree (.obj dto.keptUnits) := by
  obtain ⟨hunits, ha, hd⟩ := battleReport_sent h hreport
  obtain ⟨-, -, -, -, hau, hdu, a, b, -, -, hac, hdc, -⟩ :=
    generateAttackReport_eq_some hreport
  obtain ⟨_, _, _, -, -, hne, -, -⟩ := create_eq_ok h
  have hdefender := quoteFree_defenderUnits d' dep.token.defenderVillageId
  have htext : '\'' ∉ reportText report ↔ QuoteFree (.obj report.attackerUnits) := by
    rw [reportText, quoteFree_render]
    refine quoteFree_json (ha ▸ hd ▸ hne) (hdu ▸ hdefender) (fun hfree => ?_)
      (hdefender.computeCasualtiesForTeam hdc)
    exact QuoteFree.computeCasualtiesForTeam (hau ▸ hfree) hac
  obtain ⟨values, hvalues, hquote⟩ := updateValuesFrom_quoteFree
    (fun c hc => casualties_defenderUnits hdc hc) (List.not_mem_nil (a := '\''))
  rw [← quoteFree_roundTripMembers, ← hunits, ← htext]
  constructor
  · exact fun hcontained => hcontained.quoteFree
  · exact fun hfree => ⟨hfree, (readAsMeant_iff hvalues hquote).2 hfree,
      fun d d' hexec => changesOnlyReport hexec⟩

/-- **No breakout.** The battle of an accepted attack has a report, and the query with it is contained
exactly if no string in an entry that was sent with a count above 0 has a single quote. -/
theorem contained_iff {M : Math} {dev : Bool} {c : Clock} {d : Db C} {dto : CreateAttackDto}
    {dep : Departure C} (h : create M dev c d dto = .ok dep) (d' : Db C) :
    ∃ report, battleReport M d' (parsedAttack dep.token) = some report ∧
      (Contained C report ↔ ∀ u ∈ dto.unitSent.entries, isKept u → QuoteFree u.2) := by
  obtain ⟨report, hreport⟩ := exists_battleReport h d'
  exact ⟨report, hreport, (contained_iff_quoteFree h hreport).trans (quoteFree_keptUnits h)⟩

theorem contained_iff_sample :
    ∃ dep, create sampleMath false sampleClock sampleDb (sampleRequest sampleHunters) = .ok dep ∧
      ∃ report, battleReport sampleMath sampleDb (parsedAttack dep.token) = some report ∧
        (Contained sampleCatalog report ↔
          ∀ u ∈ (sampleRequest sampleHunters).unitSent.entries, isKept u → QuoteFree u.2) := by
  obtain ⟨dep, h⟩ := accepted_sampleHunters
  exact ⟨dep, h, contained_iff h sampleDb⟩

/-- A name with a single quote is accepted, and its report breaks the query. -/
theorem quote_in_report :
    ¬∀ (C : Catalog) (M : Math) (dev : Bool) (c : Clock) (d d' : Db C) (dto : CreateAttackDto)
      (dep : Departure C) (report : AttackReport), create M dev c d dto = .ok dep →
        battleReport M d' (parsedAttack dep.token) = some report → Contained C report := by
  intro hall
  obtain ⟨dep, h⟩ := accepted_sampleQuoted
  obtain ⟨report, hreport⟩ := exists_battleReport h sampleDb
  have hcontained := hall _ _ _ _ _ _ _ _ _ h hreport
  have hfree := (contained_iff_quoteFree h hreport).1 hcontained
  have hunits := (quoteFree_keptUnits h).1 hfree ("stone_hunter", .obj sampleQuoted)
    (List.mem_singleton_self _) (by decide +kernel)
  exact hunits "stone_hunter's" (by decide) (by decide)

end Cme.Battles
