import Gekko.Audit.Checks
import Gekko.Audit.Coverage
import Gekko.Audit.Denials
import Gekko.Audit.Truncated
import Gekko.Delegation.Bypass
import Gekko.Delegation.Logout
import Gekko.Delegation.Requests
import Gekko.Dpop.Agreement
import Gekko.Dpop.Binding
import Gekko.Dpop.Relay
import Gekko.Employee.Escapes
import Gekko.Frontend.Handshake
import Gekko.Frontend.OneTime
import Gekko.Frontend.TokenExchange
import Gekko.Inventory.Aggregate
import Gekko.Inventory.Cover
import Gekko.Inventory.Jwks
import Gekko.Inventory.Refresh
import Gekko.Inventory.Rotation
import Gekko.Jwks.Agreement
import Gekko.Ordering.Bound
import Gekko.Ordering.Decision
import Gekko.Ordering.Failure
import Gekko.Ordering.Lookup
import Gekko.Ordering.WarehouseStock
import Gekko.Roles.Agreement
import Gekko.Warehouse.OwnRecord
import Gekko.Warehouse.Refresh
import Gekko.Warehouse.Scan
import Gekko.Warehouse.Script
import Gekko.Warehouse.Viewers
