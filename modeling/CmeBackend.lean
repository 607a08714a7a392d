import CmeBackend.Lib.Runs
import CmeBackend.Blockchain.IngameMkc
import CmeBackend.Blockchain.MkcRelay
import CmeBackend.Blockchain.Effects
import CmeBackend.Blockchain.Steps
import CmeBackend.Blockchain.Amounts
import CmeBackend.Blockchain.Ledger
import CmeBackend.Blockchain.Reserve
import CmeBackend.Blockchain.Deposits
import CmeBackend.Blockchain.Payments
import CmeBackend.Lib.Js
import CmeBackend.Lib.Json
import CmeBackend.Lib.Sql
import CmeBackend.GameRules.MilitaryResources
import CmeBackend.GameRules.Facilities
import CmeBackend.Villages.Entities
import CmeBackend.Villages.Resources
import CmeBackend.Attacks.Create
import CmeBackend.Attacks.Acceptance
import CmeBackend.Battles.Report
import CmeBackend.Battles.Manager
import CmeBackend.Battles.Text
import CmeBackend.Battles.Armies
import CmeBackend.Battles.Conservation
import CmeBackend.Storage.Transfer
import CmeBackend.Storage.Conservation
import CmeBackend.Storage.Capacity
import CmeBackend.Lib.Snapshots
import CmeBackend.Attacks.Steps
import CmeBackend.Storage.Steps
import CmeBackend.GameRules.Production
import CmeBackend.Production.Entities
import CmeBackend.Production.Orders
import CmeBackend.Access.Ownership
import CmeBackend.Exchanges.Base
import CmeBackend.Exchanges.Military
import CmeBackend.Villages.LostUpdates
import CmeBackend.Lib.Weights
import CmeBackend.Lib.Redis
import CmeBackend.GameRules.Prices
import CmeBackend.Facilities.Building
import CmeBackend.Battles.Steps
import CmeBackend.Villages.Solvency
import CmeBackend.Villages.Totals
import CmeBackend.Exchanges.Delivery
import CmeBackend.Exchanges.Conservation
import CmeBackend.Exchanges.Cron
import CmeBackend.Production.Producer
import CmeBackend.Villages.Creation
import CmeBackend.Villages.Uniqueness
import CmeBackend.Battles.Loot
import CmeBackend.Lib.Petri
import CmeBackend.Attacks.Life
import CmeBackend.Attacks.Lifecycle
import CmeBackend.Attacks.Simulation
import CmeBackend.Attacks.Tokens
import CmeBackend.Production.Lifecycle
import CmeBackend.Production.Tokens
import CmeBackend.Production.Delivered
import CmeBackend.Scheduler.Movers
import CmeBackend.Resources.CronQuery
import CmeBackend.Resources.Overlap
import CmeBackend.Facilities.Saves
import CmeBackend.Facilities.Reverts
import CmeBackend.Facilities.Levels
import CmeBackend.Facilities.Running
import CmeBackend.Blockchain.DerivedWallets
import CmeBackend.Blockchain.WalletRows
import CmeBackend.Blockchain.Transitions
import CmeBackend.Blockchain.Ending
import CmeBackend.Blockchain.Backing
import CmeBackend.Lib.Caps
import CmeBackend.Lib.Protection
import CmeBackend.Exchanges.Rejections
import CmeBackend.Exchanges.Availability
import CmeBackend.Map.Entities
import CmeBackend.Map.Villages
import CmeBackend.Map.Steps
import CmeBackend.Map.Limits
import CmeBackend.Map.Blocks
import CmeBackend.Map.Coordinates
import CmeBackend.Map.Sequence
import CmeBackend.Facilities.Maximum
import CmeBackend.Attacks.Truce
import CmeBackend.Guilds.Service
import CmeBackend.Guilds.Deletion
import CmeBackend.Guilds.Membership
import CmeBackend.Lib.Scan
import CmeBackend.Lib.Charge
import CmeBackend.Lib.Extremes
import CmeBackend.Lib.Shares
import CmeBackend.Exchanges.Balances
import CmeBackend.Storage.Withdrawals
import CmeBackend.Map.FreeTile
import CmeBackend.Map.Price
import CmeBackend.Attacks.Speed
import CmeBackend.Battles.Capacity
import CmeBackend.Battles.Exact
import CmeBackend.Battles.ExactJson
import CmeBackend.Battles.Soundness
import CmeBackend.Map.Spreading
import CmeBackend.Villages.Charges
import CmeBackend.Facilities.PriceLaw
import CmeBackend.Facilities.Upgrade
import CmeBackend.Production.Charging
import CmeBackend.Lib.Batches
import CmeBackend.Scheduler.Moves
import CmeBackend.Scheduler.Turns
import CmeBackend.Lib.Fields
import CmeBackend.Blockchain.DerivationPaths
import CmeBackend.Villages.Summaries
import CmeBackend.Attacks.Flags
import CmeBackend.Lib.Relations
import CmeBackend.Facilities.Loading
import CmeBackend.Lib.Numerals
import CmeBackend.Map.Areas
import CmeBackend.Lib.Books
import CmeBackend.Game.World
import CmeBackend.Game.Stocks
import CmeBackend.Game.Reports
import CmeBackend.Game.Flows
import CmeBackend.Game.Requests
import CmeBackend.Game.Growth
import CmeBackend.Game.Marches
import CmeBackend.Game.Armies
import CmeBackend.Game.Solvency
import CmeBackend.Lib.Work
import CmeBackend.Attacks.Ending
import CmeBackend.Lib.Refinement
import CmeBackend.Game.Calls
import CmeBackend.Production.Ending
import CmeBackend.Lib.Delays
import CmeBackend.Production.Pace
import CmeBackend.Attacks.Travel
