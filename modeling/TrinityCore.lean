import TrinityCore.Accounts.Rbac
import TrinityCore.Pools.TurnsAlone
import TrinityCore.Pools.Circular
import TrinityCore.Battlegrounds.Matching
import TrinityCore.Auth.Binding
import TrinityCore.Auth.SecondFactor
import TrinityCore.DungeonFinding.Assignment
import TrinityCore.DungeonFinding.Dungeons
import TrinityCore.DungeonFinding.JoinPacket
import TrinityCore.DungeonFinding.Joining
import TrinityCore.DungeonFinding.Proposing
import TrinityCore.DungeonFinding.BestCompatible
import TrinityCore.DungeonFinding.Boot
import TrinityCore.Packets.PackedTime
import TrinityCore.Guilds.Rights
import TrinityCore.Guilds.Validation
import TrinityCore.Guilds.Master
import TrinityCore.Guilds.BankItems
import TrinityCore.Guilds.EventLog
import TrinityCore.Groups.EndRoll
import TrinityCore.Groups.SubGroups
import TrinityCore.Groups.Looter
import TrinityCore.Players.BuyBack
import TrinityCore.Mails.Conserved
import TrinityCore.Instances.InstanceIds
import TrinityCore.Instances.Respawns
import TrinityCore.Instances.Alignment
import TrinityCore.Instances.EventIds
import TrinityCore.Combat.NextVictim
import TrinityCore.Looting.CountedOnce
import TrinityCore.Looting.Reload
import TrinityCore.Reputation.Relog
import TrinityCore.Chat.Ownership
import TrinityCore.Chat.LinkGrammar
import TrinityCore.Calendar.Rsvp
import TrinityCore.Events.EventSpawns
import TrinityCore.Events.EventQuests
import TrinityCore.Events.WorldEvents
import TrinityCore.Events.NextCheck
import TrinityCore.Conditions.Evaluation
import TrinityCore.Utilities.EventDelay
import TrinityCore.Utilities.TimeString
import TrinityCore.Utilities.WideStrings
import TrinityCore.Utilities.EventRefinement
import TrinityCore.Utilities.EventOrder
import TrinityCore.Server.Framing
import TrinityCore.Server.Decoding
import TrinityCore.Spells.RankLookup
import TrinityCore.Spells.GroupRules
import TrinityCore.Vehicles.Boarding
import TrinityCore.Collision.SharedModels
import TrinityCore.Calendar.RemoveAll
import TrinityCore.Tools.DumpLines
import TrinityCore.Tools.DumpComplete
import TrinityCore.Players.PreviousQuest
import TrinityCore.Achievements.Growth
import TrinityCore.Players.AbandonedQuest
import TrinityCore.DataStores.LoaderBounds
