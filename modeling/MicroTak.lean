import MicroTak.EventLog.Crash
import MicroTak.Transport.Admission
import MicroTak.Transport.Seen
import MicroTak.Enrollment.EnrolledUid
import MicroTak.Missions.Escalation
import MicroTak.Missions.Frame
import MicroTak.Backup.Mirror
import MicroTak.Marti.ProfileRoutes
import MicroTak.Marti.Subscriptions
import MicroTak.Marti.TimeFilters
import MicroTak.Marti.Zip
import MicroTak.Registry.History
import MicroTak.Enrollment.BruteForce
import MicroTak.Enrollment.InviteSpending
import MicroTak.Enrollment.InviteExpiry
import MicroTak.Enrollment.GrantedGroups
import MicroTak.Listeners.RevokedAccount
import MicroTak.Listeners.Lockout
import MicroTak.Content.Like
import MicroTak.Content.Uploads
import MicroTak.Content.Downloads
import MicroTak.Content.ProfileNames
import MicroTak.Groups.Client
import MicroTak.Transport.GroupCache
import MicroTak.Missions.Listing
import MicroTak.Feeds.Convergence
import MicroTak.Missions.LogReaders
import MicroTak.Missions.RefusedUpdates
import MicroTak.Network.Survival
import MicroTak.Network.Notices
import MicroTak.Network.OneLoop
import MicroTak.Missions.LayerOrder
import MicroTak.Missions.SquashedChanges
import MicroTak.Missions.LetterCase
import MicroTak.Missions.RoleRemoval
